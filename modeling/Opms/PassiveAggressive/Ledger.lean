import Opms.Foundation.Merge
import Opms.PassiveAggressive.Accounting
import Mathlib.Data.Finset.Lattice.Basic
import Mathlib.Data.Fintype.BigOperators

/-! # Order-insensitive fill accounting

Distinct fills and completion summaries reach an order in any order and any
number of times. What they say is a join semilattice: per order, the set of
trade ids seen and the largest summary. The executor's records refine it, and
every credited amount is a function of it.
-/

namespace Opms.PassiveAggressive

open Foundation Executor

variable {n : ℕ}

/-! ## Reports -/

/-- What a fill or a completion says, without what may differ between copies. -/
inductive Report
  | fill (orderId : OrderId) (tradeId : String)
  | summary (orderId : OrderId) (amount : ℚ)
  deriving DecidableEq

def Op.report? : Op → Option Report
  | .filled event => event.tradeId?.map (.fill event.orderId)
  | .completed event => some (.summary event.orderId event.baseAssetAmount)
  | _ => none

/-- Amounts are non-negative, and a fill carries a trade id that always names
the same amount for its order. -/
def WellFormed (amountOf : OrderId → String → ℚ) : Op → Prop
  | .filled event =>
      0 ≤ event.amount ∧ event.tradeId?.map (amountOf event.orderId) = some event.amount
  | .completed event => 0 ≤ event.baseAssetAmount
  | _ => True

instance (amountOf : OrderId → String → ℚ) : DecidablePred (WellFormed amountOf)
  | .filled _ => inferInstanceAs (Decidable (_ ∧ _))
  | .completed event => inferInstanceAs (Decidable (0 ≤ event.baseAssetAmount))
  | .controlTask _ | .canceled _ _ | .failed _ _ | .earlyStop _ _ | .evaluateMaxRetries _ =>
      .isTrue trivial

/-- The trade ids that were reported for an order. -/
def tradesOf (orderId : OrderId) : List Report → Finset String
  | [] => ∅
  | .fill order tradeId :: rest =>
      if order = orderId then insert tradeId (tradesOf orderId rest) else tradesOf orderId rest
  | .summary _ _ :: rest => tradesOf orderId rest

/-- The sum of an order's distinct fills. -/
def distinctFills (amountOf : OrderId → String → ℚ) (orderId : OrderId)
    (reports : List Report) : ℚ :=
  ∑ tradeId ∈ tradesOf orderId reports, amountOf orderId tradeId

/-- The largest completion summary of an order, 0 when there is none. -/
def largestSummary (orderId : OrderId) : List Report → ℚ
  | [] => 0
  | .fill _ _ :: rest => largestSummary orderId rest
  | .summary order amount :: rest =>
      if order = orderId then max amount (largestSummary orderId rest)
      else largestSummary orderId rest

theorem largestSummary_nonneg (orderId : OrderId) (reports : List Report) :
    0 ≤ largestSummary orderId reports := by
  induction reports with
  | nil => exact le_refl 0
  | cons report rest ih =>
      cases report with
      | fill order tradeId => exact ih
      | summary order amount =>
          simp only [largestSummary]
          split
          · exact le_max_of_le_right ih
          · exact ih

/-! ## The ledger -/

/-- Per order, the trade ids seen and the largest summary. -/
abbrev Ledger := OrderId → Finset String × ℚ

/-- The ledger that knows only one report. -/
def Report.ledger : Report → Ledger
  | .fill orderId tradeId => fun order => if orderId = order then ({tradeId}, 0) else (∅, 0)
  | .summary orderId amount => fun order => if orderId = order then (∅, amount) else (∅, 0)

/-- What an order is due according to a ledger. -/
def due (amountOf : OrderId → String → ℚ) (ledger : Ledger) (orderId : OrderId) : ℚ :=
  max (∑ tradeId ∈ (ledger orderId).1, amountOf orderId tradeId) (ledger orderId).2

/-- The ledger of a list of reports holds their trade ids and largest summaries. -/
theorem absorb_reports (reports : List Report) (ledger : Ledger)
    (hledger : ∀ orderId, 0 ≤ (ledger orderId).2) (orderId : OrderId) :
    absorb Report.ledger ledger reports orderId =
      ((ledger orderId).1 ∪ tradesOf orderId reports,
        max (ledger orderId).2 (largestSummary orderId reports)) := by
  induction reports generalizing ledger with
  | nil => simp [tradesOf, largestSummary, hledger orderId]
  | cons report rest ih =>
      have hjoin : ∀ order, 0 ≤ ((ledger ⊔ report.ledger) order).2 := fun order =>
        (hledger order).trans le_sup_left
      rw [absorb_cons, ih _ hjoin]
      cases report with
      | fill order tradeId =>
          by_cases heq : order = orderId
          · simp [Report.ledger, heq, tradesOf, largestSummary, hledger orderId]
          · simp [Report.ledger, heq, tradesOf, largestSummary, hledger orderId]
      | summary order amount =>
          by_cases heq : order = orderId
          · simp [Report.ledger, heq, tradesOf, largestSummary, max_assoc]
          · simp [Report.ledger, heq, tradesOf, largestSummary, hledger orderId]

/-! ## What an operation does to one record -/

/-- The record under `orderId` before and after an operation. -/
inductive RecordStep (orderId : OrderId) (op : Op) :
    Option (OrderRecord n) → Option (OrderRecord n) → Prop
  | kept (record : Option (OrderRecord n))
      (hkeep : op.creditedOrder? = some orderId → ∀ r ∈ record,
        ∃ event, op = .filled event ∧ event.tradeId?.any (· ∈ r.tradeIds) = true) :
      RecordStep orderId op record record
  | settled (r : OrderRecord n) (hop : op.creditedOrder? = none) :
      RecordStep orderId op (some r) (some { r with terminal := true })
  | placed (c : Fin n) (amount : ℚ) (hop : op.creditedOrder? = none) :
      RecordStep orderId op none (some { child := c, amount })
  | filled (event : OrderFilledEvent) (r : OrderRecord n) (hop : op = .filled event)
      (horder : event.orderId = orderId)
      (hnew : event.tradeId?.any (· ∈ r.tradeIds) = false) :
      RecordStep orderId op (some r)
        (some { withFill event r with credited := r.credited + gain (withFill event r) })
  | completed (event : OrderCompletedEvent) (r : OrderRecord n) (hop : op = .completed event)
      (horder : event.orderId = orderId) :
      RecordStep orderId op (some r)
        (some { withSummary event r with
          terminal := true
          credited := r.credited + gain (withSummary event r) })

section Perform

variable (cfg : Settings) {s t : Executor n} (orderId : OrderId)

theorem lookup_markTerminal (other : OrderId) :
    (s.markTerminal other).orders.lookup orderId =
      if orderId = other then (s.orders.lookup orderId).map fun r => { r with terminal := true }
      else s.orders.lookup orderId :=
  Registry.lookup_modify _ _ _ _

/-- A placement adds one fresh record at most. -/
theorem lookup_of_submits {call : Call} (h : Submits cfg call s t)
    (hfresh : s.orders.lookup call.orderId = none) :
    t.orders.lookup orderId = s.orders.lookup orderId ∨
      s.orders.lookup orderId = none ∧
        ∃ c amount, t.orders.lookup orderId = some { child := c, amount } := by
  cases h with
  | none frame => exact .inl (by rw [frame.orders])
  | one c orderType price places frame =>
      have hset : t.orders.lookup orderId = if orderId = call.orderId then
          some { child := c, amount := s.room cfg c } else s.orders.lookup orderId := by
        rw [frame.orders]
        exact Registry.lookup_set _ _ _ _
      rw [hset]
      split
      next heq => exact .inr ⟨heq ▸ hfresh, c, _, rfl⟩
      next => exact .inl rfl

/-- Settling an order and then placing at most one more. -/
theorem recordStep_of_settled {op : Op} {call : Call} {other : OrderId}
    (hop : op.creditedOrder? = none) (hfresh : s.orders.lookup call.orderId = none)
    (hsubmits : Submits cfg call (s.markTerminal other) t) :
    RecordStep orderId op (s.orders.lookup orderId) (t.orders.lookup orderId) := by
  have hsettle := lookup_markTerminal (s := s) orderId other
  have hfresh' : (s.markTerminal other).orders.lookup call.orderId = none := by
    rw [lookup_markTerminal, hfresh]
    simp
  rcases lookup_of_submits cfg orderId hsubmits hfresh' with heq | ⟨habsent, c, amount, heq⟩
  · rw [heq, hsettle]
    split
    next =>
      cases s.orders.lookup orderId with
      | none => exact .kept none (by simp [hop])
      | some r => exact .settled r hop
    next => exact .kept _ (by simp [hop])
  · have hnone : s.orders.lookup orderId = none := by
      rw [hsettle] at habsent
      split at habsent
      next => simpa using habsent
      next => exact habsent
    rw [heq, hnone]
    exact .placed c amount hop

theorem perform_recordStep {op : Op} (hfresh : FreshId s op) :
    RecordStep orderId op (s.orders.lookup orderId)
      ((perform cfg s op).orders.lookup orderId) := by
  cases op with
  | controlTask call =>
      have hnone : (Op.controlTask call).creditedOrder? = none := rfl
      rcases lookup_of_submits cfg orderId (controlTask_submits cfg call s) (hfresh.lookup rfl) with
        heq | ⟨habsent, c, amount, heq⟩
      · rw [perform, heq]
        exact .kept _ (by simp [hnone])
      · rw [perform, heq, habsent]
        exact .placed c amount hnone
  | filled event =>
      rcases processOrderFilledEvent_cases cfg s event with
        ⟨heq, hreplay⟩ | ⟨r, hlook, hnew, hframe⟩
      · rw [perform, heq]
        refine .kept _ fun horder r hr => ⟨event, rfl, ?_⟩
        have horder' : event.orderId = orderId := Option.some.inj horder
        exact hreplay r (horder' ▸ hr)
      · rw [perform, hframe.orders]
        by_cases horder : event.orderId = orderId
        · subst horder
          rw [s.lookup_noteFill_credit event hlook, hlook]
          exact .filled event r rfl rfl hnew
        · rw [s.lookup_noteFill_credit_ne event hlook (Ne.symm horder)]
          exact .kept _ fun hop => absurd (Option.some.inj hop) horder
  | completed event =>
      rcases processOrderCompletedEvent_cases s event with ⟨heq, hlook⟩ | ⟨r, hlook, hframe⟩
      · rw [perform, heq]
        refine .kept _ fun horder r hr => ?_
        have horder' : event.orderId = orderId := Option.some.inj horder
        rw [← horder', hlook] at hr
        cases hr
      · rw [perform, hframe.orders]
        by_cases horder : event.orderId = orderId
        · subst horder
          rw [s.lookup_noteSummary_credit event hlook, hlook]
          exact .completed event r rfl rfl
        · rw [s.lookup_noteSummary_credit_ne event hlook (Ne.symm horder)]
          exact .kept _ fun hop => absurd (Option.some.inj hop) horder
  | canceled call event =>
      exact recordStep_of_settled cfg orderId rfl (hfresh.lookup rfl)
        (processOrderCanceledEvent_submits cfg call s event)
  | failed call event =>
      exact recordStep_of_settled cfg orderId rfl (hfresh.lookup rfl)
        (processOrderFailedEvent_submits cfg call s event)
  | earlyStop call keepPosition =>
      rw [perform, (Frame.earlyStop call s keepPosition).orders]
      exact .kept _ (by simp [Op.creditedOrder?])
  | evaluateMaxRetries call =>
      rw [perform, (Frame.evaluateMaxRetries cfg call s).orders]
      exact .kept _ (by simp [Op.creditedOrder?])

end Perform

/-! ## The records merge reports -/

/-- The ledger held in the executor's records. -/
def Executor.ledger (s : Executor n) : Ledger := fun orderId =>
  (s.orders.lookup orderId).elim (∅, 0) fun r => (r.tradeIds, r.reported)

/-- The report of an operation, when it concerns a known order. -/
def accepted (s : Executor n) (op : Op) : List Report :=
  if op.creditedOrder?.any (s.orders.lookup · |>.isSome) then op.report?.toList else []

/-- The credit of a record is what its distinct fills and summaries amount to. -/
structure Merged (amountOf : OrderId → String → ℚ) (orderId : OrderId) (r : OrderRecord n) :
    Prop where
  fillSum : r.fillSum = ∑ tradeId ∈ r.tradeIds, amountOf orderId tradeId
  reported : 0 ≤ r.reported
  credited : r.credited = max r.fillSum r.reported

def AllMerged (amountOf : OrderId → String → ℚ) (s : Executor n) : Prop :=
  ∀ orderId r, s.orders.lookup orderId = some r → Merged amountOf orderId r

theorem credited_add_gain {r r' : OrderRecord n} (hcredited : r.credited = max r.fillSum r.reported)
    (hkeep : r'.credited = r.credited) (hfill : r.fillSum ≤ r'.fillSum)
    (hreported : r.reported ≤ r'.reported) :
    r.credited + gain r' = max r'.fillSum r'.reported := by
  have hle : r.credited ≤ max r'.fillSum r'.reported := by
    rw [hcredited]
    exact max_le_max hfill hreported
  rw [gain, creditDelta, hkeep, max_eq_left (sub_nonneg.mpr hle)]
  ring

section Merge

variable {amountOf : OrderId → String → ℚ} {orderId : OrderId} {op : Op}

theorem tradeId_of_wellFormed {event : OrderFilledEvent}
    (hwell : WellFormed amountOf (.filled event)) :
    ∃ tradeId, event.tradeId? = some tradeId ∧ amountOf event.orderId tradeId = event.amount :=
  Option.map_eq_some_iff.mp hwell.2

theorem Merged.recordStep {before after : Option (OrderRecord n)} (hwell : WellFormed amountOf op)
    (hbefore : ∀ r ∈ before, Merged amountOf orderId r)
    (hstep : RecordStep orderId op before after) : ∀ r ∈ after, Merged amountOf orderId r := by
  intro r' hr'
  cases hstep with
  | kept _ hkeep => exact hbefore r' hr'
  | settled r hop =>
      cases hr'
      have hmerged := hbefore r rfl
      exact ⟨hmerged.fillSum, hmerged.reported, hmerged.credited⟩
  | placed c amount hop =>
      cases hr'
      exact ⟨by simp, le_refl 0, by simp⟩
  | filled event r hop horder hnew =>
      cases hr'
      subst hop horder
      have hmerged := hbefore r rfl
      -- a fill that is not a replay brings a trade id the record has not summed
      obtain ⟨tradeId, hid, hamount⟩ := tradeId_of_wellFormed hwell
      have hfresh : tradeId ∉ r.tradeIds := by simpa [hid] using hnew
      refine ⟨?_, hmerged.reported, credited_add_gain hmerged.credited rfl ?_ (le_refl _)⟩
      · simp only [withFill, hid, Option.elim_some]
        rw [Finset.sum_insert hfresh, hamount, hmerged.fillSum, add_comm]
      · exact le_add_of_nonneg_right hwell.1
  | completed event r hop horder =>
      cases hr'
      have hmerged := hbefore r rfl
      exact ⟨hmerged.fillSum, le_max_of_le_left hmerged.reported,
        credited_add_gain hmerged.credited rfl (le_refl _) (le_max_left _ _)⟩

theorem AllMerged.perform {cfg : Settings} {s : Executor n} (h : AllMerged amountOf s)
    (hfresh : FreshId s op) (hwell : WellFormed amountOf op) :
    AllMerged amountOf (perform cfg s op) := fun orderId r hr =>
  Merged.recordStep hwell (h orderId) (perform_recordStep cfg orderId hfresh) r hr

/-- An operation that does not credit an order says nothing about it. -/
theorem accepted_of_ne (s : Executor n) (hne : op.creditedOrder? ≠ some orderId) :
    tradesOf orderId (accepted s op) = ∅ ∧ largestSummary orderId (accepted s op) = 0 := by
  unfold accepted
  split
  next =>
    cases op with
    | filled event =>
        have hne' : event.orderId ≠ orderId := fun heq => hne (congrArg some heq)
        cases htrade : event.tradeId? with
        | none => simp [Op.report?, htrade, tradesOf, largestSummary]
        | some tradeId => simp [Op.report?, htrade, tradesOf, largestSummary, hne']
    | completed event =>
        have hne' : event.orderId ≠ orderId := fun heq => hne (congrArg some heq)
        simp [Op.report?, tradesOf, largestSummary, hne']
    | controlTask call => simp [Op.report?, tradesOf, largestSummary]
    | canceled call event => simp [Op.report?, tradesOf, largestSummary]
    | failed call event => simp [Op.report?, tradesOf, largestSummary]
    | earlyStop call keepPosition => simp [Op.report?, tradesOf, largestSummary]
    | evaluateMaxRetries call => simp [Op.report?, tradesOf, largestSummary]
  next => exact ⟨rfl, rfl⟩

theorem accepted_of_known {s : Executor n} {r : OrderRecord n}
    (hop : op.creditedOrder? = some orderId) (hlook : s.orders.lookup orderId = some r) :
    accepted s op = op.report?.toList := by
  simp [accepted, hop, hlook]

theorem accepted_of_unknown {s : Executor n}
    (hop : op.creditedOrder? = some orderId) (hlook : s.orders.lookup orderId = none) :
    accepted s op = [] := by
  simp [accepted, hop, hlook]

/-- The executor refines the ledger: it joins the reports it accepts. -/
theorem ledger_perform {cfg : Settings} {s : Executor n} (h : AllMerged amountOf s)
    (hfresh : FreshId s op) (hwell : WellFormed amountOf op) :
    (perform cfg s op).ledger = absorb Report.ledger s.ledger (accepted s op) := by
  funext orderId
  have hstep := perform_recordStep cfg orderId hfresh
  have hreported : ∀ order, 0 ≤ (s.ledger order).2 := by
    intro order
    unfold Executor.ledger
    cases hlook : s.orders.lookup order with
    | none => exact le_refl 0
    | some r => exact (h order r hlook).reported
  rw [absorb_reports _ _ hreported]
  -- an operation on another order reports nothing about this one
  have hquiet : op.creditedOrder? ≠ some orderId →
      ((s.ledger orderId).1 ∪ tradesOf orderId (accepted s op),
        max (s.ledger orderId).2 (largestSummary orderId (accepted s op))) =
        s.ledger orderId := by
    intro hne
    obtain ⟨htrades, hsummary⟩ := accepted_of_ne s hne
    rw [htrades, hsummary, Finset.union_empty, max_eq_left (hreported orderId)]
  unfold Executor.ledger at hquiet ⊢
  generalize hlook : s.orders.lookup orderId = before at hstep hquiet
  generalize (perform cfg s op).orders.lookup orderId = after at hstep
  cases hstep with
  | kept _ hkeep =>
      by_cases hop : op.creditedOrder? = some orderId
      · cases before with
        | none => simp [accepted_of_unknown hop hlook, tradesOf, largestSummary]
        | some r =>
            -- a known record is kept under a report only when the fill is a replay
            obtain ⟨event, rfl, hreplay⟩ := hkeep hop r rfl
            obtain ⟨tradeId, hid, hamount⟩ := tradeId_of_wellFormed hwell
            have hmem : tradeId ∈ r.tradeIds := by simpa [hid] using hreplay
            have horder : event.orderId = orderId := Option.some.inj hop
            simp [accepted_of_known hop hlook, Op.report?, hid, horder, tradesOf, largestSummary,
              (h orderId r hlook).reported, hmem]
      · exact (hquiet hop).symm
  | settled r hop => exact (hquiet (by simp [hop])).symm
  | placed c amount hop => exact (hquiet (by simp [hop])).symm
  | filled event r hop horder hnew =>
      subst hop
      obtain ⟨tradeId, hid, hamount⟩ := tradeId_of_wellFormed hwell
      have hcredited : (Op.filled event).creditedOrder? = some orderId := congrArg some horder
      simp [accepted_of_known hcredited hlook, Op.report?, hid, horder, tradesOf, largestSummary,
        (h orderId r hlook).reported, withFill, Finset.union_comm r.tradeIds]
  | completed event r hop horder =>
      subst hop
      have hcredited : (Op.completed event).creditedOrder? = some orderId := congrArg some horder
      have hpos : 0 ≤ event.baseAssetAmount := hwell
      simp [accepted_of_known hcredited hlook, Op.report?, horder, tradesOf, largestSummary,
        withSummary, hpos]

end Merge

/-! ## The accounts are a function of the ledger -/

/-- Which child each order belongs to. -/
def Executor.owners (s : Executor n) : Registry OrderId (Fin n) :=
  s.orders.mapEntries fun _ r => r.child

/-- Fills and completions do not add orders. -/
theorem perform_owners (cfg : Settings) (s : Executor n) {op : Op}
    (hop : op.creditedOrder?.isSome) : (perform cfg s op).owners = s.owners := by
  have hcredit : ∀ (t : Executor n) (orderId : OrderId), (t.credit orderId).owners = t.owners := by
    intro t orderId
    cases hlook : t.orders.lookup orderId with
    | none => simp [owners, credit, hlook]
    | some r =>
        rw [owners, t.credit_orders hlook]
        exact t.orders.mapEntries_modify_of_keep orderId OrderRecord.child fun _ => rfl
  cases op with
  | filled event =>
      rcases processOrderFilledEvent_cases cfg s event with ⟨heq, _⟩ | ⟨r, _, _, hframe⟩
      · rw [perform, heq]
      · rw [perform, owners, hframe.orders]
        exact (hcredit _ _).trans
          (s.orders.mapEntries_modify_of_keep event.orderId OrderRecord.child fun _ => rfl)
  | completed event =>
      rcases processOrderCompletedEvent_cases s event with ⟨heq, _⟩ | ⟨r, _, hframe⟩
      · rw [perform, heq]
      · have hsettle : (s.markTerminal event.orderId).owners = s.owners :=
          s.orders.mapEntries_modify_of_keep event.orderId OrderRecord.child fun _ => rfl
        have hnote : ((s.markTerminal event.orderId).noteSummary event).owners =
            (s.markTerminal event.orderId).owners :=
          (s.markTerminal event.orderId).orders.mapEntries_modify_of_keep event.orderId
            OrderRecord.child fun _ => rfl
        rw [perform, owners, hframe.orders]
        exact (hcredit _ _).trans (hnote.trans hsettle)
  | controlTask call => cases hop
  | canceled call event => cases hop
  | failed call event => cases hop
  | earlyStop call keepPosition => cases hop
  | evaluateMaxRetries call => cases hop

/-- The credited amounts of two executors agree, per order, per child and in total. -/
structure SameAccounts (s t : Executor n) : Prop where
  credited : ∀ orderId, (s.orders.lookup orderId).map OrderRecord.credited =
    (t.orders.lookup orderId).map OrderRecord.credited
  filled : ∀ c, (s.children c).filled = (t.children c).filled
  cumulative : s.cumulativeFilled = t.cumulativeFilled

section Accounts

variable {amountOf : OrderId → String → ℚ} {s t : Executor n}

theorem AllMerged.credited_eq_due (h : AllMerged amountOf s) {orderId : OrderId}
    {r : OrderRecord n} (hlook : s.orders.lookup orderId = some r) :
    r.credited = due amountOf s.ledger orderId := by
  have hmerged := h orderId r hlook
  rw [hmerged.credited, hmerged.fillSum]
  simp [due, ledger, hlook]

theorem AllMerged.sameAccounts (hs : AllMerged amountOf s) (ht : AllMerged amountOf t)
    (hsa : Accounted s) (hta : Accounted t) (howners : s.owners = t.owners)
    (hledger : s.ledger = t.ledger) : SameAccounts s t := by
  have hcredited : ∀ {u : Executor n}, AllMerged amountOf u → ∀ orderId,
      (u.orders.lookup orderId).map OrderRecord.credited =
        (u.owners.lookup orderId).map fun _ => due amountOf u.ledger orderId := by
    intro u hu orderId
    rw [owners, Registry.lookup_mapEntries]
    cases hlook : u.orders.lookup orderId with
    | none => rfl
    | some r => exact congrArg some (hu.credited_eq_due hlook)
  have htotal : ∀ {u : Executor n}, AllMerged amountOf u → ∀ weight : Fin n → ℚ → ℚ,
      (u.orders.total fun _ r => weight r.child r.credited) =
        u.owners.total fun orderId c => weight c (due amountOf u.ledger orderId) := by
    intro u hu weight
    rw [owners, Registry.total_mapEntries]
    exact u.orders.total_congr fun orderId r hlook => by rw [hu.credited_eq_due hlook]
  refine ⟨fun orderId => ?_, fun c => ?_, ?_⟩
  · rw [hcredited hs, hcredited ht, howners, hledger]
  · have hweight := fun u : Executor n => fun hu : AllMerged amountOf u =>
      htotal hu fun child credited => if child = c then credited else 0
    rw [hsa.child, hta.child, hweight s hs, hweight t ht, howners, hledger]
  · have hweight := fun u : Executor n => fun hu : AllMerged amountOf u =>
      htotal hu fun _ credited => credited
    rw [hsa.cumulative, hta.cumulative, hweight s hs, hweight t ht, howners, hledger]

end Accounts

/-! ## Runs -/

/-- The executor's side of a run: fresh ids and well-formed events. -/
def Admissible (amountOf : OrderId → String → ℚ) (s : Executor n) (op : Op) : Prop :=
  FreshId s op ∧ WellFormed amountOf op

instance (amountOf : OrderId → String → ℚ) (s : Executor n) (op : Op) :
    Decidable (Admissible amountOf s op) := inferInstanceAs (Decidable (_ ∧ _))

/-- Fills and completions of orders that were already submitted. -/
def CreditsKnown (amountOf : OrderId → String → ℚ) (s : Executor n) (op : Op) : Prop :=
  (∃ orderId ∈ op.creditedOrder?, orderId ∈ s.orders.keys) ∧ WellFormed amountOf op

instance (amountOf : OrderId → String → ℚ) (s : Executor n) (op : Op) :
    Decidable (CreditsKnown amountOf s op) :=
  inferInstanceAs (Decidable ((∃ orderId ∈ op.creditedOrder?, orderId ∈ s.orders.keys) ∧ _))

section Runs

variable {cfg : Settings} {amountOf : OrderId → String → ℚ} {s : Executor n}

theorem CreditsKnown.admissible {op : Op} (h : CreditsKnown amountOf s op) :
    Admissible amountOf s op := by
  refine ⟨fun call hcall => ?_, h.2⟩
  obtain ⟨⟨orderId, horder, _⟩, _⟩ := h
  cases op <;> simp_all [Op.call?, Op.creditedOrder?]

theorem mem_keys_iff_owners (orderId : OrderId) :
    orderId ∈ s.orders.keys ↔ orderId ∈ s.owners.keys := by
  rw [owners, Registry.keys_mapEntries]

theorem CreditsKnown.of_owners {t : Executor n} {op : Op} (howners : t.owners = s.owners)
    (h : CreditsKnown amountOf s op) : CreditsKnown amountOf t op := by
  obtain ⟨⟨orderId, horder, hknown⟩, hwell⟩ := h
  refine ⟨⟨orderId, horder, ?_⟩, hwell⟩
  rwa [mem_keys_iff_owners, howners, ← mem_keys_iff_owners]

theorem CreditsKnown.accepted_eq {op : Op} (h : CreditsKnown amountOf s op) :
    accepted s op = op.report?.toList := by
  obtain ⟨⟨orderId, horder, hknown⟩, _⟩ := h
  cases hlook : s.orders.lookup orderId with
  | none => exact absurd hknown ((s.orders.lookup_eq_none_iff orderId).mp hlook)
  | some r => exact accepted_of_known horder hlook

/-- The state that accounting arguments start from. -/
structure Balanced (amountOf : OrderId → String → ℚ) (s : Executor n) : Prop where
  accounted : Accounted s
  merged : AllMerged amountOf s

theorem Balanced.perform (h : Balanced amountOf s) {op : Op} (hop : Admissible amountOf s op) :
    Balanced amountOf (perform cfg s op) :=
  ⟨h.accounted.perform cfg hop.1, h.merged.perform hop.1 hop.2⟩

theorem Balanced.init (slots : List ChildSlot) (hfilled : ∀ slot ∈ slots, slot.filled = 0) :
    Balanced amountOf (Executor.init slots) :=
  ⟨Accounted.init slots hfilled, fun orderId r hlook => by simp [Executor.init] at hlook⟩

/-- A run absorbs the reports it accepted. -/
theorem ledger_run (h : Balanced amountOf s) {ops : List Op}
    (hops : Along (perform cfg) (Admissible amountOf) s ops) :
    (run (perform cfg) s ops).ledger =
      absorb Report.ledger s.ledger (emitted (perform cfg) accepted s ops) :=
  view_run_eq_absorb Report.ledger Executor.ledger (Balanced amountOf)
    (fun _ _ hs hop => hs.perform hop)
    (fun _ _ hs hop => ledger_perform hs.merged hop.1 hop.2) h hops

/-- Fills and completions of known orders are all accepted. -/
theorem run_of_creditsKnown {ops : List Op} (hops : ∀ op ∈ ops, CreditsKnown amountOf s op) :
    Along (perform cfg) (Admissible amountOf) s ops ∧
      (run (perform cfg) s ops).owners = s.owners ∧
      emitted (perform cfg) accepted s ops = ops.filterMap Op.report? := by
  induction ops generalizing s with
  | nil => exact ⟨trivial, rfl, rfl⟩
  | cons op rest ih =>
      have hop := hops op List.mem_cons_self
      have howners : (perform cfg s op).owners = s.owners := by
        obtain ⟨⟨orderId, horder, _⟩, _⟩ := hop
        exact perform_owners cfg s (Option.isSome_of_mem horder)
      obtain ⟨halong, hkeep, hemitted⟩ := ih fun next hnext =>
        (hops next (List.mem_cons_of_mem op hnext)).of_owners howners
      refine ⟨⟨hop.admissible, halong⟩, hkeep.trans howners, ?_⟩
      rw [emitted_cons, hemitted, hop.accepted_eq, List.filterMap_cons]
      cases op.report? <;> rfl

/-- Only the set of distinct reports matters for the final accounts. -/
theorem sameAccounts_of_same_reports (h : Balanced amountOf s) {first second : List Op}
    (hfirst : ∀ op ∈ first, CreditsKnown amountOf s op)
    (hsecond : ∀ op ∈ second, CreditsKnown amountOf s op)
    (hsame : ∀ report, report ∈ first.filterMap Op.report? ↔
      report ∈ second.filterMap Op.report?) :
    SameAccounts (run (perform cfg) s first) (run (perform cfg) s second) := by
  obtain ⟨halong, howners, hemitted⟩ := run_of_creditsKnown hfirst
  obtain ⟨halong', howners', hemitted'⟩ := run_of_creditsKnown hsecond
  have hbalanced : ∀ {ops}, Along (perform cfg) (Admissible amountOf) s ops →
      Balanced amountOf (run (perform cfg) s ops) := fun hops =>
    run_invariant (Balanced amountOf) (fun _ _ hs hop => hs.perform hop) h hops
  refine (hbalanced halong).merged.sameAccounts (hbalanced halong').merged
    (hbalanced halong).accounted (hbalanced halong').accounted (howners.trans howners'.symm) ?_
  rw [ledger_run h halong, ledger_run h halong', hemitted, hemitted']
  exact absorb_eq_of_same_values Report.ledger
    (fun report hreport => ⟨report, (hsame report).mp hreport, rfl⟩)
    (fun report hreport => ⟨report, (hsame report).mpr hreport, rfl⟩)

end Runs

/-! ## Conservation and order-insensitivity -/

/-- In every reachable state the total, the children and the order records
agree, and each order was credited the larger of its distinct fills and its
largest summary. From there on, two sequences of fills and completions that
report the same set of facts lead to the same accounts. -/
theorem conserved_and_order_insensitive (cfg : Settings) (slots : List ChildSlot)
    (hslots : buildChildSlots cfg = .ok slots) (amountOf : OrderId → String → ℚ) (ops : List Op)
    (hops : Along (perform cfg) (Admissible amountOf) (init slots) ops) :
    let final := run (perform cfg) (init slots) ops
    let reports := emitted (perform cfg) accepted (init slots) ops
    final.cumulativeFilled = ∑ c, (final.children c).filled ∧
      (final.cumulativeFilled = final.orders.total fun _ r => r.credited) ∧
      (∀ c, (final.children c).filled =
        final.orders.total fun _ r => if r.child = c then r.credited else 0) ∧
      (∀ orderId r, final.orders.lookup orderId = some r →
        r.credited = max (distinctFills amountOf orderId reports)
          (largestSummary orderId reports)) ∧
      ∀ first second : List Op,
        (∀ op ∈ first, CreditsKnown amountOf final op) →
        (∀ op ∈ second, CreditsKnown amountOf final op) →
        (∀ report, report ∈ first.filterMap Op.report? ↔
          report ∈ second.filterMap Op.report?) →
        SameAccounts (run (perform cfg) final first) (run (perform cfg) final second) := by
  intro final reports
  have hinit : Balanced amountOf (init slots) := Balanced.init slots fun slot hslot => by
    rw [(buildChildSlots_fresh hslots hslot).1]
  have hfinal : Balanced amountOf final :=
    run_invariant (Balanced amountOf) (fun _ _ hs hop => hs.perform hop) hinit hops
  have hchildren : final.cumulativeFilled = ∑ c, (final.children c).filled := by
    simp only [hfinal.accounted.child]
    rw [Registry.sum_total, hfinal.accounted.cumulative]
    simp
  refine ⟨hchildren, hfinal.accounted.cumulative, hfinal.accounted.child, ?_, ?_⟩
  · intro orderId r hlook
    have hledger : final.ledger orderId =
        (tradesOf orderId reports, largestSummary orderId reports) := by
      have habsorb := absorb_reports reports (init slots).ledger (fun _ => le_refl 0) orderId
      rw [← ledger_run hinit hops] at habsorb
      rw [habsorb]
      simp [ledger, init, largestSummary_nonneg]
    rw [hfinal.merged.credited_eq_due hlook, due, hledger, distinctFills]
  · intro first second hfirst hsecond hsame
    exact sameAccounts_of_same_reports hfinal hfirst hsecond hsame

/-- A partial fill, replayed and then overtaken by the summary, or the reverse. -/
theorem conserved_and_order_insensitive_replayed :
    let fill := Op.filled { orderId := "a", exchangeTradeId := some "t", amount := 3 / 10 }
    let summary := Op.completed { orderId := "a", baseAssetAmount := 1 }
    let final := run (perform sampleConfig) (init [{ target := 1 }])
      [.controlTask { now := 0, bestBid := some 100, orderId := "a" }]
    final.orders.keys = ["a"] ∧
      SameAccounts (run (perform sampleConfig) final [fill, fill, summary])
        (run (perform sampleConfig) final [summary, fill]) := by
  intro fill summary final
  refine ⟨by decide +kernel, ?_⟩
  have hlaws := conserved_and_order_insensitive sampleConfig [{ target := 1 }]
    (by decide +kernel) (fun _ _ => 3 / 10)
    [.controlTask { now := 0, bestBid := some 100, orderId := "a" }] (by decide +kernel)
  refine hlaws.2.2.2.2 [fill, fill, summary] [summary, fill] (by decide +kernel)
    (by decide +kernel) fun report => ?_
  simp [fill, summary, Op.report?, OrderFilledEvent.tradeId?, or_comm]

end Opms.PassiveAggressive
