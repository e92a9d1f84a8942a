import Opms.Foundation.Reservation
import Opms.PassiveAggressive.Accounting

/-! # Bounded over-execution

Every order reserves its amount until a terminal event settles it. The executor
simulates a book of reservations in which each placement fits under the total
and under its child's target, so only spending after settlement, that is fills
credited after an order's terminal event, can exceed either of them.
-/

namespace Opms.PassiveAggressive

open Foundation

variable {n : ℕ}

namespace Executor

/-- An order record as a reservation held by its child. -/
def reservation (r : OrderRecord n) : Reservation (Fin n) ℚ :=
  ⟨r.child, r.amount, r.credited, !r.terminal⟩

/-- The order records as a book of reservations. -/
def book (s : Executor n) : Book OrderId (Fin n) ℚ :=
  s.orders.mapEntries fun _ => reservation

/-- A bound is read for the whole executor (`none`) or for one child. -/
def covers (scope : Option (Fin n)) (c : Fin n) : Bool := scope.all (c = ·)

/-- What was executed in the scope. -/
def executed (s : Executor n) : Option (Fin n) → ℚ
  | none => s.cumulativeFilled
  | some c => (s.children c).filled

/-- What may be executed in the scope. -/
def limit (cfg : Settings) (s : Executor n) : Option (Fin n) → ℚ
  | none => cfg.totalAmountBase
  | some c => (s.children c).target

theorem book_unspentIn_all (s : Executor n) :
    s.book.unspentIn (fun _ => true) = s.outstanding := by
  rw [Book.unspentIn, book, Registry.total_mapEntries, outstanding]
  congr 1
  funext _ r
  cases hterminal : r.terminal <;> simp [reservation, Reservation.unspent, hterminal]

theorem Accounted.book_spentIn {s : Executor n} (h : Accounted s) (scope : Option (Fin n)) :
    s.book.spentIn (covers scope) = s.executed scope := by
  rw [Book.spentIn, book, Registry.total_mapEntries]
  cases scope with
  | none => simpa [covers, executed, reservation] using h.cumulative.symm
  | some c =>
      rw [executed, h.child]
      congr 1
      funext _ r
      by_cases hchild : r.child = c <;> simp [covers, reservation, hchild]

/-- The room of a covered child fits under the scope's limit. -/
theorem Accounted.exposure_add_room_le {s : Executor n} (h : Accounted s) (cfg : Settings)
    (scope : Option (Fin n)) {c : Fin n} (hcovers : covers scope c = true) :
    s.book.exposureIn (covers scope) + s.room cfg c ≤ s.limit cfg scope := by
  -- the room subtracts what every order still has open, not only the scope's
  have hunspent : s.book.unspentIn (covers scope) ≤ s.outstanding := by
    rw [← book_unspentIn_all]
    exact Book.unspentIn_le_all s.book
  rw [Book.exposureIn_eq, h.book_spentIn]
  have htotal := min_le_right ((s.children c).target - (s.children c).filled)
    (cfg.totalAmountBase - s.cumulativeFilled)
  have htarget := min_le_left ((s.children c).target - (s.children c).filled)
    (cfg.totalAmountBase - s.cumulativeFilled)
  cases scope with
  | none =>
      simp only [executed, limit, room]
      linarith
  | some c' =>
      simp only [covers, Option.all_some, decide_eq_true_eq] at hcovers
      subst hcovers
      simp only [executed, limit, room]
      linarith

/-! ## The book under the code's steps -/

section Book

variable {s t : Executor n}

theorem Frame.book_eq (h : Frame s t) : t.book = s.book := by
  rw [book, h.orders]
  rfl

theorem book_markTerminal (s : Executor n) (orderId : OrderId) :
    (s.markTerminal orderId).book = s.book.apply (.settle orderId) :=
  Registry.mapEntries_modify s.orders orderId reservation _ _ fun _ _ => rfl

theorem book_noteFill (s : Executor n) (event : OrderFilledEvent) :
    (s.noteFill event).book = s.book := by
  refine (Registry.mapEntries_modify s.orders event.orderId reservation
    (withFill event) id fun _ _ => rfl).trans ?_
  exact Registry.modify_eq_self _ fun _ _ => rfl

theorem book_noteSummary (s : Executor n) (event : OrderCompletedEvent) :
    (s.noteSummary event).book = s.book := by
  refine (Registry.mapEntries_modify s.orders event.orderId reservation
    (withSummary event) id fun _ _ => rfl).trans ?_
  exact Registry.modify_eq_self _ fun _ _ => rfl

theorem book_credit (s : Executor n) {orderId : OrderId} {r : OrderRecord n}
    (hlook : s.orders.lookup orderId = some r) :
    (s.credit orderId).book = s.book.apply (.spend orderId (gain r)) := by
  rw [book, s.credit_orders hlook]
  exact Registry.mapEntries_modify s.orders orderId reservation _ _ fun _ _ => rfl

theorem book_submit (s : Executor n) (cfg : Settings) (call : Call)
    (hfresh : s.orders.lookup call.orderId = none) (c : Fin n) (orderType : OrderType)
    (amount : ℚ) (price : Option ℚ) :
    (s.submit cfg call c orderType amount price).book =
      s.book.apply (.reserve call.orderId c amount) :=
  Registry.mapEntries_set_of_absent s.orders hfresh _ reservation

theorem book_lookup (s : Executor n) (orderId : OrderId) :
    s.book.lookup orderId = (s.orders.lookup orderId).map reservation := by
  rw [book, Registry.lookup_mapEntries]

/-- A placement is a reservation that fits. -/
theorem Accounted.submits_reaches (h : Accounted s) {cfg : Settings} {call : Call}
    (hfresh : s.orders.lookup call.orderId = none) (hsubmits : Submits cfg call s t)
    (scope : Option (Fin n)) :
    Book.Reaches (covers scope) (s.limit cfg scope) s.book 0 t.book := by
  cases hsubmits with
  | none frame =>
      rw [frame.book_eq]
      exact .refl _ _
  | one c orderType price places frame =>
      rw [frame.book_eq, book_submit s cfg call hfresh]
      refine Book.Reaches.move (.reserve call.orderId c (s.room cfg c))
        ⟨?_, places.room_pos.le⟩ fun hcovers => h.exposure_add_room_le cfg scope hcovers
      rw [book_lookup, hfresh]
      rfl

end Book

end Executor

/-! ## Late credits -/

open Executor

/-- What the operation credits to an order whose record was already terminal
when the event arrived, within the scope. -/
def lateCredit (cfg : Settings) (scope : Option (Fin n)) (s : Executor n) (op : Op) : ℚ :=
  match op.creditedOrder?.bind fun orderId =>
      (s.orders.lookup orderId).map fun r => (orderId, r) with
  | none => 0
  | some (orderId, r) =>
      if r.terminal = true ∧ covers scope r.child = true then
        (((perform cfg s op).orders.lookup orderId).elim 0 OrderRecord.credited) - r.credited
      else 0

/-- No order is ever credited more than its submitted amount. -/
def CreditsWithin (cfg : Settings) (s : Executor n) (op : Op) : Prop :=
  ∀ entry ∈ (perform cfg s op).orders.entries, entry.2.credited ≤ entry.2.amount

instance (cfg : Settings) (s : Executor n) (op : Op) : Decidable (CreditsWithin cfg s op) :=
  inferInstanceAs (Decidable (∀ _ ∈ _, _))

theorem CreditsWithin.of_lookup {cfg : Settings} {s : Executor n} {op : Op}
    (h : CreditsWithin cfg s op) {orderId : OrderId} {r : OrderRecord n}
    (hlook : (perform cfg s op).orders.lookup orderId = some r) : r.credited ≤ r.amount :=
  h (orderId, r) ((Registry.mem_entries_iff _ _ _).mpr hlook)

section Perform

variable {cfg : Settings} {s : Executor n} (scope : Option (Fin n))

/-- Settling an order and then placing at most one more. -/
theorem reaches_of_settled (h : Accounted s) {t : Executor n} {call : Call} {orderId : OrderId}
    (hfresh : s.orders.lookup call.orderId = none)
    (hsubmits : Submits cfg call (s.markTerminal orderId) t) :
    Book.Reaches (covers scope) (s.limit cfg scope) s.book 0 t.book := by
  have hsettle : Book.Reaches (covers scope) (s.limit cfg scope) s.book 0
      (s.markTerminal orderId).book := by
    rw [book_markTerminal]
    exact Book.Reaches.move (.settle orderId) trivial trivial
  have hfresh' : (s.markTerminal orderId).orders.lookup call.orderId = none := by
    rw [markTerminal, Registry.lookup_modify]
    simp [hfresh]
  have hlimit : (s.markTerminal orderId).limit cfg scope = s.limit cfg scope := by
    cases scope <;> rfl
  have hplace := (h.markTerminal orderId).submits_reaches hfresh' hsubmits scope
  rw [hlimit] at hplace
  simpa using hsettle.trans hplace

theorem lateCredit_eq {op : Op} {orderId : OrderId} {r : OrderRecord n}
    (hop : op.creditedOrder? = some orderId) (hlook : s.orders.lookup orderId = some r)
    {r' : OrderRecord n} (hafter : (perform cfg s op).orders.lookup orderId = some r') :
    lateCredit cfg scope s op = if r.terminal = true ∧ covers scope r.child = true then
      r'.credited - r.credited else 0 := by
  simp [lateCredit, hop, hlook, hafter]

theorem lateCredit_of_absent {op : Op} {orderId : OrderId}
    (hop : op.creditedOrder? = some orderId) (hlook : s.orders.lookup orderId = none) :
    lateCredit cfg scope s op = 0 := by
  simp [lateCredit, hop, hlook]

/-- A credit is spending on the order's reservation, late exactly when the
record was terminal. -/
theorem spend_reaches {orderId : OrderId} {r r' : OrderRecord n} {extra : ℚ}
    (hlook : s.orders.lookup orderId = some r) (hwithin : r'.credited ≤ r'.amount)
    (hextra : 0 ≤ extra) (hcredited : r'.credited = r.credited + extra)
    (hamount : r'.amount = r.amount) (limit : ℚ) :
    Book.Reaches (covers scope) limit s.book
      (if r.terminal = true ∧ covers scope r.child = true then r'.credited - r.credited else 0)
      (s.book.apply (.spend orderId extra)) := by
  have hbook : s.book.lookup orderId = some (reservation r) := by rw [book_lookup, hlook]; rfl
  have hproper : s.book.Proper (.spend orderId extra) := by
    refine ⟨hextra, fun res hres _ => ?_⟩
    rw [hbook, Option.some.injEq] at hres
    subst hres
    have hle : r.credited + extra ≤ r.amount := by
      rw [← hcredited, ← hamount]
      exact hwithin
    exact hle
  have hmove : Book.Reaches (covers scope) limit s.book
      (s.book.late (covers scope) (.spend orderId extra))
      (s.book.apply (.spend orderId extra)) := Book.Reaches.move _ hproper trivial
  have hcharge : s.book.late (covers scope) (.spend orderId extra) =
      if r.terminal = true ∧ covers scope r.child = true then r'.credited - r.credited
      else 0 := by
    simp only [Book.late, hbook, reservation]
    rw [hcredited, add_sub_cancel_left]
    simp
  rwa [hcharge] at hmove

theorem perform_limit (cfg : Settings) (s : Executor n) (op : Op) :
    (perform cfg s op).limit cfg scope = s.limit cfg scope := by
  cases scope with
  | none => rfl
  | some c => exact perform_target cfg s op c

/-- A fill spends what it credits on the order's reservation. -/
theorem filled_reaches {event : OrderFilledEvent}
    (hcredits : CreditsWithin cfg s (.filled event)) :
    Book.Reaches (covers scope) (s.limit cfg scope) s.book
      (lateCredit cfg scope s (.filled event)) (perform cfg s (.filled event)).book := by
  rcases processOrderFilledEvent_cases cfg s event with ⟨heq, _⟩ | ⟨r, hlook, _, hframe⟩
  · have hsame : perform cfg s (.filled event) = s := heq
    have hlate : lateCredit cfg scope s (.filled event) = 0 := by
      cases hlook : s.orders.lookup event.orderId with
      | none => exact lateCredit_of_absent scope rfl hlook
      | some r =>
          have hafter := hlook
          rw [← hsame] at hafter
          rw [lateCredit_eq scope rfl hlook hafter]
          simp
    rw [hsame, hlate]
    exact .refl _ _
  · have hafter : (perform cfg s (.filled event)).orders.lookup event.orderId =
        some { withFill event r with credited := r.credited + gain (withFill event r) } := by
      rw [perform, hframe.orders]
      exact s.lookup_noteFill_credit event hlook
    rw [lateCredit_eq scope rfl hlook hafter, perform, hframe.book_eq,
      book_credit _ (s.lookup_noteFill event hlook), book_noteFill]
    exact spend_reaches scope hlook (hcredits.of_lookup hafter) (gain_nonneg _) rfl rfl _

/-- A completion spends what it credits on the order's reservation, then settles it. -/
theorem completed_reaches {event : OrderCompletedEvent}
    (hcredits : CreditsWithin cfg s (.completed event)) :
    Book.Reaches (covers scope) (s.limit cfg scope) s.book
      (lateCredit cfg scope s (.completed event)) (perform cfg s (.completed event)).book := by
  rcases processOrderCompletedEvent_cases s event with ⟨heq, hlook⟩ | ⟨r, hlook, hframe⟩
  · have hsame : perform cfg s (.completed event) = s := heq
    rw [lateCredit_of_absent scope rfl hlook, hsame]
    exact .refl _ _
  · have hafter : (perform cfg s (.completed event)).orders.lookup event.orderId =
        some { withSummary event r with
          terminal := true
          credited := r.credited + gain (withSummary event r) } := by
      rw [perform, hframe.orders]
      exact s.lookup_noteSummary_credit event hlook
    -- the code settles first; the book spends first, so the credit is not late
    have hbook : (perform cfg s (.completed event)).book =
        (s.book.apply (.spend event.orderId (gain (withSummary event r)))).apply
          (.settle event.orderId) := by
      rw [perform, hframe.book_eq, book_credit _ (s.lookup_noteSummary event hlook),
        book_noteSummary, book_markTerminal]
      simp only [Book.apply, Registry.modify_modify]
      rfl
    rw [lateCredit_eq scope rfl hlook hafter, hbook]
    have hspend := spend_reaches scope hlook (hcredits.of_lookup hafter)
      (gain_nonneg (withSummary event r)) rfl rfl (s.limit cfg scope)
    have hsettle : Book.Reaches (covers scope) (s.limit cfg scope)
        (s.book.apply (.spend event.orderId (gain (withSummary event r)))) 0 _ :=
      Book.Reaches.move (.settle event.orderId) trivial trivial
    simpa using hspend.trans hsettle

/-- The executor simulates the book: each operation is a few proper moves whose
reservations fit, and its late spending is what it credits to settled orders. -/
theorem perform_reaches (h : Accounted s) {op : Op} (hfresh : FreshId s op)
    (hcredits : CreditsWithin cfg s op) :
    Book.Reaches (covers scope) (s.limit cfg scope) s.book (lateCredit cfg scope s op)
      (perform cfg s op).book := by
  cases op with
  | controlTask call =>
      exact h.submits_reaches (hfresh.lookup rfl) (controlTask_submits cfg call s) scope
  | filled event => exact filled_reaches scope hcredits
  | completed event => exact completed_reaches scope hcredits
  | canceled call event =>
      exact reaches_of_settled scope h (hfresh.lookup rfl)
        (processOrderCanceledEvent_submits cfg call s event)
  | failed call event =>
      exact reaches_of_settled scope h (hfresh.lookup rfl)
        (processOrderFailedEvent_submits cfg call s event)
  | earlyStop call keepPosition =>
      rw [perform, (Frame.earlyStop call s keepPosition).book_eq]
      exact .refl _ _
  | evaluateMaxRetries call =>
      rw [perform, (Frame.evaluateMaxRetries cfg call s).book_eq]
      exact .refl _ _

/-- Along a run the exposure stays under the limit and the late credits. -/
theorem run_exposure_le {extra : ℚ} {ops : List Op} (h : Accounted s)
    (hfresh : Along (perform cfg) FreshId s ops)
    (hcredits : Along (perform cfg) (CreditsWithin cfg) s ops) (hextra : 0 ≤ extra)
    (hbook : s.book.exposureIn (covers scope) ≤ s.limit cfg scope + extra) :
    (run (perform cfg) s ops).book.exposureIn (covers scope) ≤ s.limit cfg scope +
      (extra + total (perform cfg) (lateCredit cfg scope) s ops) := by
  -- `extra` carries what was charged late before this point of the run
  induction ops generalizing s extra with
  | nil => simpa using hbook
  | cons op rest ih =>
      have hreach := perform_reaches scope h hfresh.1 hcredits.1
      have hnext := hreach.exposureIn_le hextra hbook
      rw [← perform_limit scope cfg s op] at hnext
      have htail := ih (h.perform cfg hfresh.1) hfresh.2 hcredits.2
        (add_nonneg hextra hreach.charge_nonneg) hnext
      rw [perform_limit, add_assoc] at htail
      exact htail

end Perform

/-! ## The bound -/

section Bound

variable (cfg : Settings) (slots : List ChildSlot) (hslots : buildChildSlots cfg = .ok slots)

include hslots

theorem init_accounted : Accounted (init slots) :=
  Accounted.init slots fun _ hslot => by rw [(buildChildSlots_fresh hslots hslot).1]

theorem init_limit_nonneg (htotal : 0 < cfg.totalAmountBase) (scope : Option (Fin slots.length)) :
    0 ≤ (init slots).limit cfg scope := by
  cases scope with
  | none => exact htotal.le
  | some c => exact (buildChildSlots_fresh hslots (List.getElem_mem c.2)).2.le

/-- Whatever the order of ticks, fills, completions, cancels, failures and
stops, the executed and outstanding quantities exceed the total, and a child's
fills its target, by at most what was credited after terminal events. -/
theorem bounded_over_execution (htotal : 0 < cfg.totalAmountBase) (ops : List Op)
    (hfresh : Along (perform cfg) FreshId (init slots) ops)
    (hcredits : Along (perform cfg) (CreditsWithin cfg) (init slots) ops) :
    let final := run (perform cfg) (init slots) ops
    let late := fun scope => total (perform cfg) (lateCredit cfg scope) (init slots) ops
    final.cumulativeFilled + final.outstanding ≤ cfg.totalAmountBase + late none ∧
      (∀ c, (final.children c).filled ≤ (final.children c).target + late (some c)) ∧
      (∀ order ∈ final.placed, 0 < order.amount) ∧
      (late none = 0 → final.cumulativeFilled ≤ cfg.totalAmountBase) := by
  intro final late
  have haccounted : Accounted final :=
    run_invariant Accounted (fun s op hs hop => hs.perform cfg hop)
      (init_accounted cfg slots hslots) hfresh
  have hexposure : ∀ scope, final.book.exposureIn (covers scope) ≤
      (init slots).limit cfg scope + late scope := by
    intro scope
    have hinit : (init slots).book.exposureIn (covers scope) ≤
        (init slots).limit cfg scope + 0 := by
      rw [add_zero]
      exact init_limit_nonneg cfg slots hslots htotal scope
    have hrun := run_exposure_le scope (init_accounted cfg slots hslots) hfresh hcredits
      (le_refl 0) hinit
    rwa [zero_add] at hrun
  have htarget : ∀ c, (final.children c).target = ((init slots).children c).target := by
    intro c
    exact run_invariant (fun s => (s.children c).target = ((init slots).children c).target)
      (fun s op hs _ => (perform_target cfg s op c).trans hs) rfl hfresh
  have hpos : ∀ order ∈ final.placed, 0 < order.amount :=
    run_invariant (fun s => ∀ order ∈ s.placed, 0 < order.amount)
      (fun s op hs _ => perform_placed_pos cfg s op hs) (fun _ h => by cases h) hfresh
  have hwhole : final.cumulativeFilled + final.outstanding ≤ cfg.totalAmountBase + late none := by
    have h := hexposure none
    rw [Book.exposureIn_eq, haccounted.book_spentIn] at h
    rw [← book_unspentIn_all]
    exact h
  refine ⟨hwhole, fun c => ?_, hpos, fun hlate => ?_⟩
  · have h : final.book.spentIn (covers (some c)) ≤ final.book.exposureIn (covers (some c)) :=
      Book.spentIn_le_exposureIn final.book
    rw [haccounted.book_spentIn] at h
    rw [htarget c]
    exact h.trans (hexposure (some c))
  · have hnonneg : 0 ≤ final.outstanding := by
      rw [← book_unspentIn_all]
      exact Book.unspentIn_nonneg _
    rw [hlate, add_zero] at hwhole
    linarith

end Bound

/-- A fill after the cancel ack, on top of a market order for the full amount. -/
def lateFillRun : List Op :=
  [ .controlTask { now := 0, bestBid := some 100, orderId := "limit" },
    .controlTask { now := 6, bestBid := some 100, orderId := "market" },
    .canceled { now := 7, orderId := "market" } { orderId := "limit" },
    .filled { orderId := "limit", exchangeTradeId := some "t", amount := 3 / 10 },
    .completed { orderId := "market", baseAssetAmount := 1 } ]

theorem bounded_over_execution_lateFill :
    let final := run (perform sampleConfig) (init [{ target := 1 }]) lateFillRun
    final.cumulativeFilled = 13 / 10 ∧
      total (perform sampleConfig) (lateCredit sampleConfig none) (init [{ target := 1 }])
        lateFillRun = 3 / 10 ∧
      final.cumulativeFilled + final.outstanding ≤ 1 +
        total (perform sampleConfig) (lateCredit sampleConfig none) (init [{ target := 1 }])
          lateFillRun :=
  ⟨by decide +kernel, by decide +kernel,
    (bounded_over_execution sampleConfig [{ target := 1 }] (by decide +kernel)
      (by decide +kernel) lateFillRun (by decide +kernel) (by decide +kernel)).1⟩

end Opms.PassiveAggressive
