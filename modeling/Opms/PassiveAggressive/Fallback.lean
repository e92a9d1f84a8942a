import Opms.PassiveAggressive.Accounting
import Mathlib.Tactic.Linarith

/-! # The aggressive fallback of a close

A child whose time limit elapsed owes a market order for what is left of it.
The fallback fires on the ack of an expiry cancel only. A refresh cancel or a
rejection that straddles the limit leaves the child idle, and the next tick
skips it: a run keeps the fallback exactly when no tick meets that situation.
-/

namespace Opms.PassiveAggressive

open Foundation Executor

variable {n : ℕ}

/-- The child's cycle limit has elapsed by `now`. -/
def Expired (cfg : Settings) (now : ℚ) (child : ChildSlot) : Prop :=
  ∃ start ∈ child.cycleStart, start + cfg.childOrderTimeLimit ≤ now

instance (cfg : Settings) (now : ℚ) (child : ChildSlot) : Decidable (Expired cfg now child) :=
  inferInstanceAs (Decidable (∃ start ∈ child.cycleStart, _))

/-! ## Steps that skip nobody -/

/-- No child is skipped, and every market order of the step is sent for a child
whose limit elapsed. -/
structure Steady (cfg : Settings) (now : ℚ) (s t : Executor n) : Prop where
  start : ∀ c start, (s.children c).cycleStart = some start →
    (t.children c).cycleStart = some start
  skipped : ∀ c, (t.children c).status = .skipped → (s.children c).status = .skipped
  expired : ∀ c, (t.children c).cancelReason = .cycleExpired →
    (s.children c).cancelReason = .cycleExpired ∨ Expired cfg now (t.children c)
  aggressive : ∀ c, (t.children c).status = .aggressive →
    ((s.children c).status = .aggressive ∧
      (t.children c).cancelReason = (s.children c).cancelReason) ∨
    (t.children c).cancelReason = .cycleExpired
  market : ∀ order ∈ t.placed, order.orderType = .market →
    order ∈ s.placed ∨ Expired cfg order.placedAt (t.children order.child)

namespace Steady

variable {cfg : Settings} {now : ℚ} {s t u : Executor n}

/-- Steps that touch no lifecycle field and place nothing. -/
theorem of_same (hstart : ∀ c, (t.children c).cycleStart = (s.children c).cycleStart)
    (hstatus : ∀ c, (t.children c).status = (s.children c).status)
    (hreason : ∀ c, (t.children c).cancelReason = (s.children c).cancelReason)
    (hplaced : t.placed = s.placed) : Steady cfg now s t where
  start c _ h := (hstart c).trans h
  skipped c h := (hstatus c).symm.trans h
  expired c h := .inl ((hreason c).symm.trans h)
  aggressive c h := .inl ⟨(hstatus c).symm.trans h, hreason c⟩
  market _ h _ := .inl (hplaced ▸ h)

theorem refl (s : Executor n) : Steady cfg now s s :=
  of_same (fun _ => rfl) (fun _ => rfl) (fun _ => rfl) rfl

theorem expired_mono (h : Steady cfg now s t) {c : Fin n} {time : ℚ}
    (hexpired : Expired cfg time (s.children c)) : Expired cfg time (t.children c) := by
  obtain ⟨start, hstart, hle⟩ := hexpired
  exact ⟨start, h.start c start hstart, hle⟩

theorem trans (h : Steady cfg now s t) (h' : Steady cfg now t u) : Steady cfg now s u where
  start c start hstart := h'.start c start (h.start c start hstart)
  skipped c hskipped := h.skipped c (h'.skipped c hskipped)
  expired c hreason := by
    rcases h'.expired c hreason with hbefore | hnow
    · rcases h.expired c hbefore with hold | hnow
      · exact .inl hold
      · exact .inr (h'.expired_mono hnow)
    · exact .inr hnow
  aggressive c hstatus := by
    rcases h'.aggressive c hstatus with ⟨hbefore, hsame⟩ | hreason
    · rw [hsame]
      exact h.aggressive c hbefore
    · exact .inr hreason
  market order horder hmarket := by
    rcases h'.market order horder hmarket with hbefore | hnow
    · rcases h.market order hbefore hmarket with hold | hnow
      · exact .inl hold
      · exact .inr (h'.expired_mono hnow)
    · exact .inr hnow

/-- One child changes. -/
theorem modifyChild (s : Executor n) (c : Fin n) {change : ChildSlot → ChildSlot}
    (hstart : ∀ start, (s.children c).cycleStart = some start →
      (change (s.children c)).cycleStart = some start)
    (hskipped : (change (s.children c)).status = .skipped → (s.children c).status = .skipped)
    (hexpired : (change (s.children c)).cancelReason = .cycleExpired →
      (s.children c).cancelReason = .cycleExpired ∨ Expired cfg now (change (s.children c)))
    (haggressive : (change (s.children c)).status = .aggressive →
      ((s.children c).status = .aggressive ∧
        (change (s.children c)).cancelReason = (s.children c).cancelReason) ∨
      (change (s.children c)).cancelReason = .cycleExpired) :
    Steady cfg now s (s.modifyChild c change) := by
  have hcases : ∀ property : ChildSlot → ChildSlot → Prop,
      property (s.children c) (change (s.children c)) → (∀ child, property child child) →
        ∀ c', property (s.children c') ((s.modifyChild c change).children c') := by
    intro property hc hother c'
    by_cases heq : c' = c
    · subst heq
      rwa [modifyChild_children_self]
    · rw [s.modifyChild_children_ne heq]
      exact hother _
  exact
    { start := hcases (fun b a => ∀ start, b.cycleStart = some start → a.cycleStart = some start)
        hstart fun _ _ h => h
      skipped := hcases (fun b a => a.status = .skipped → b.status = .skipped)
        hskipped fun _ h => h
      expired := hcases (fun b a => a.cancelReason = .cycleExpired →
        b.cancelReason = .cycleExpired ∨ Expired cfg now a) hexpired fun _ h => .inl h
      aggressive := hcases (fun b a => a.status = .aggressive →
        (b.status = .aggressive ∧ a.cancelReason = b.cancelReason) ∨
          a.cancelReason = .cycleExpired) haggressive fun _ h => .inl ⟨h, rfl⟩
      market := fun order horder _ => .inl horder }

/-- A child takes a status that is neither skipped nor aggressive. -/
theorem setStatus (s : Executor n) (c : Fin n) {change : ChildSlot → ChildSlot}
    (hstart : (change (s.children c)).cycleStart = (s.children c).cycleStart)
    (hreason : (change (s.children c)).cancelReason = (s.children c).cancelReason)
    (hstatus : (change (s.children c)).status ≠ .skipped ∧
      (change (s.children c)).status ≠ .aggressive ∨
      (change (s.children c)).status = (s.children c).status) :
    Steady cfg now s (s.modifyChild c change) := by
  refine modifyChild s c (fun start h => hstart.trans h) (fun h => ?_)
    (fun h => .inl (hreason.symm.trans h)) fun h => .inl ⟨?_, hreason⟩
  · rcases hstatus with hne | heq
    · exact absurd h hne.1
    · exact heq.symm.trans h
  · rcases hstatus with hne | heq
    · exact absurd h hne.2
    · exact heq.symm.trans h

/-- A cancel request, whose reason may be expiry only after the limit. -/
theorem cancelChild (s : Executor n) (c : Fin n) (reason : CancelReason)
    (hreason : reason = .cycleExpired → Expired cfg now (s.children c)) :
    Steady cfg now s (s.cancelChild c reason) := by
  unfold Executor.cancelChild
  split
  next => exact refl s
  next orderId _ =>
    have hlog : Steady cfg now s { s with cancelRequests := s.cancelRequests ++ [orderId] } :=
      of_same (fun _ => rfl) (fun _ => rfl) (fun _ => rfl) rfl
    refine hlog.trans (modifyChild _ c (fun _ h => h) (fun h => by cases h) (fun h => ?_)
      fun h => by cases h)
    exact .inr (hreason h)

variable (cfg now) in
/-- Submitting an order changes only the child's tracked order. -/
theorem submit (s : Executor n) (call : Call) (c : Fin n) (orderType : OrderType) (amount : ℚ)
    (price : Option ℚ) (hmarket : orderType = .market → Expired cfg call.now (s.children c)) :
    Steady cfg now s (s.submit cfg call c orderType amount price) := by
  have hchild : ∀ {Field : Type} (field : ChildSlot → Field),
      (∀ child tracked, field { child with trackedOrder := tracked } = field child) → ∀ c',
      field ((s.submit cfg call c orderType amount price).children c') =
        field (s.children c') := by
    intro Field field hfield c'
    simp only [Executor.submit, Function.update_apply]
    split
    next heq => rw [heq, hfield]
    next => rfl
  have hquiet : Steady cfg now s
      { s.submit cfg call c orderType amount price with placed := s.placed } :=
    of_same (hchild ChildSlot.cycleStart fun _ _ => rfl) (hchild ChildSlot.status fun _ _ => rfl)
      (hchild ChildSlot.cancelReason fun _ _ => rfl) rfl
  refine ⟨hquiet.start, hquiet.skipped, hquiet.expired, hquiet.aggressive, ?_⟩
  intro order horder hkind
  rcases List.mem_append.mp horder with hold | hnew
  · exact .inl hold
  · rw [List.mem_singleton] at hnew
    subst hnew
    obtain ⟨start, hstart, hle⟩ := hmarket hkind
    exact .inr ⟨start, hquiet.start c start hstart, hle⟩

theorem startCycle (s : Executor n) (call : Call) (c : Fin n) :
    Steady cfg now s (s.startCycle call c) :=
  modifyChild s c (fun start h => by simp [h]) (fun h => h) (fun h => .inl h)
    fun h => .inl ⟨h, rfl⟩

end Steady

/-! ## The clock invariant -/

/-- Market orders, expiry cancels and aggressive children come after the limit. -/
structure Clocked (cfg : Settings) (now : ℚ) (s : Executor n) : Prop where
  market : ∀ order ∈ s.placed, order.orderType = .market →
    Expired cfg order.placedAt (s.children order.child)
  expired : ∀ c, (s.children c).cancelReason = .cycleExpired → Expired cfg now (s.children c)
  aggressive : ∀ c, (s.children c).status = .aggressive →
    (s.children c).cancelReason = .cycleExpired

section Steps

variable {cfg : Settings} {now : ℚ} {s t : Executor n} (call : Call)

theorem Expired.mono {child : ChildSlot} {later : ℚ} (h : Expired cfg now child)
    (hle : now ≤ later) : Expired cfg later child := by
  obtain ⟨start, hstart, hbefore⟩ := h
  exact ⟨start, hstart, hbefore.trans hle⟩

theorem Clocked.later (h : Clocked cfg now s) {later : ℚ} (hle : now ≤ later) :
    Clocked cfg later s :=
  ⟨h.market, fun c hc => (h.expired c hc).mono hle, h.aggressive⟩

theorem Clocked.steady (h : Clocked cfg now s) (hsteady : Steady cfg now s t) :
    Clocked cfg now t := by
  refine ⟨fun order horder hmarket => ?_, fun c hreason => ?_, fun c hstatus => ?_⟩
  · rcases hsteady.market order horder hmarket with hold | hnew
    · exact hsteady.expired_mono (h.market order hold hmarket)
    · exact hnew
  · rcases hsteady.expired c hreason with hbefore | hnow
    · exact hsteady.expired_mono (h.expired c hbefore)
    · exact hnow
  · rcases hsteady.aggressive c hstatus with ⟨hbefore, hsame⟩ | hreason
    · exact hsame.trans (h.aggressive c hbefore)
    · exact hreason

theorem placeLimit_steady (s : Executor n) (c : Fin n) :
    Steady cfg call.now s (s.placeLimit cfg call c) := by
  unfold placeLimit
  split
  next => exact .setStatus s c rfl rfl (.inr rfl)
  next price _ =>
    dsimp only
    split
    next => exact .setStatus s c rfl rfl (.inl ⟨by simp, by simp⟩)
    next =>
      have hsubmit := Steady.submit cfg call.now s call c .limit (s.room cfg c) (some price)
        fun h => by cases h
      exact hsubmit.trans (.setStatus _ c rfl rfl (.inl ⟨by simp, by simp⟩))

theorem placeAggressive_steady (s : Executor n) (c : Fin n)
    (hreason : (s.children c).cancelReason = .cycleExpired)
    (hexpired : Expired cfg call.now (s.children c)) :
    Steady cfg call.now s (s.placeAggressive cfg call c) := by
  have hidle : Steady cfg call.now s
      (s.modifyChild c fun child => { child with status := .idle }) :=
    .setStatus s c rfl rfl (.inl ⟨by simp, by simp⟩)
  unfold placeAggressive
  dsimp only
  split
  next => exact hidle
  next =>
    split
    next => exact hidle.trans (.setStatus _ c rfl rfl (.inl ⟨by simp, by simp⟩))
    next =>
      have hsubmit := Steady.submit cfg call.now
        (s.modifyChild c fun child => { child with status := .idle }) call c .market
        ((s.modifyChild c fun child => { child with status := .idle }).room cfg c) none
        fun _ => hidle.expired_mono hexpired
      refine hidle.trans (hsubmit.trans (.modifyChild _ c (fun _ h => h) (fun h => by cases h)
        (fun h => .inl h) fun _ => .inr ?_))
      simpa [submit] using hreason

/-- A tick skips the child: it is idle with its limit elapsed. -/
def IdleExpiry (cfg : Settings) (call : Call) (s : Executor n) (c : Fin n) : Prop :=
  (s.children c).status = .idle ∧ cfg.childOrderTimeLimit ≤ s.cycleElapsed call c

instance (cfg : Settings) (call : Call) (s : Executor n) (c : Fin n) :
    Decidable (IdleExpiry cfg call s c) := inferInstanceAs (Decidable (_ ∧ _))

theorem stepChild_steady (s : Executor n) (c : Fin n)
    (hstart : (s.children c).cycleStart.isSome) (hactive : ¬ IdleExpiry cfg call s c) :
    Steady cfg call.now s (s.stepChild cfg call c) := by
  unfold stepChild
  split
  next hidle =>
    split
    next helapsed => exact absurd ⟨hidle, helapsed⟩ hactive
    next =>
      split
      next => exact .refl s
      next =>
        exact Steady.trans (.setStatus s c rfl rfl (.inr rfl)) (placeLimit_steady call _ c)
  next =>
    split
    next helapsed =>
      refine .cancelChild s c _ fun _ => ?_
      obtain ⟨start, hsome⟩ := Option.isSome_iff_exists.mp hstart
      refine ⟨start, hsome, ?_⟩
      simp only [cycleElapsed, hsome, Option.getD_some] at helapsed
      linarith
    next =>
      split
      next => exact .cancelChild s c _ fun h => by cases h
      next => exact .refl s
  next => exact .refl s

theorem advance_steady (s : Executor n) : Steady cfg now s s.advance :=
  .of_same (fun _ => rfl) (fun _ => rfl) (fun _ => rfl) rfl

theorem closeExecutionBy_steady (s : Executor n) (closeType : CloseType) :
    Steady cfg now s (s.closeExecutionBy call closeType) :=
  .of_same (fun _ => rfl) (fun _ => rfl) (fun _ => rfl) rfl

theorem markTerminal_steady (s : Executor n) (orderId : OrderId) :
    Steady cfg now s (s.markTerminal orderId) :=
  .of_same (fun _ => rfl) (fun _ => rfl) (fun _ => rfl) rfl

theorem credit_steady (s : Executor n) (orderId : OrderId) :
    Steady cfg now s (s.credit orderId) :=
  .of_same (credit_child_field s ChildSlot.cycleStart fun _ _ => rfl)
    (credit_child_field s ChildSlot.status fun _ _ => rfl)
    (credit_child_field s ChildSlot.cancelReason fun _ _ => rfl) s.credit_placed

theorem backOff_steady (s : Executor n) (c : Fin n) :
    Steady cfg now s (s.backOff cfg call c) := by
  have hcount : Steady cfg now s { s with currentRetries := s.currentRetries + 1 } :=
    .of_same (fun _ => rfl) (fun _ => rfl) (fun _ => rfl) rfl
  unfold backOff
  exact hcount.trans (.setStatus _ c rfl rfl (.inl ⟨by simp, by simp⟩))

/-- Starting the cycle clock does not change whether the tick skips the child. -/
theorem startCycle_idleExpiry (s : Executor n) (c : Fin n) :
    IdleExpiry cfg call (s.startCycle call c) c ↔ IdleExpiry cfg call s c := by
  simp [IdleExpiry, startCycle, cycleElapsed]

/-- The child the operation skips for its elapsed limit, if there is one. -/
def expiring (cfg : Settings) (s : Executor n) : Op → Option (Fin n)
  | .controlTask call =>
      if s.status = .running then
        s.advance.activeChild.filter fun c => IdleExpiry cfg call s c
      else
        none
  | _ => none

theorem expiring_eq_some {op : Op} {c : Fin n} (h : expiring cfg s op = some c) :
    ∃ call, op = .controlTask call ∧ s.status = .running ∧ s.advance.activeChild = some c ∧
      IdleExpiry cfg call s c := by
  cases op with
  | controlTask call =>
      simp only [expiring] at h
      split at h
      next hrunning =>
        obtain ⟨hactive, hidle⟩ := Option.filter_eq_some_iff.mp h
        exact ⟨call, rfl, hrunning, hactive, of_decide_eq_true hidle⟩
      next => cases h
  | filled event => cases h
  | completed event => cases h
  | canceled call event => cases h
  | failed call event => cases h
  | earlyStop call keepPosition => cases h
  | evaluateMaxRetries call => cases h

/-- Such a tick does nothing but skip the child. -/
theorem perform_of_expiring {op : Op} {c : Fin n} (h : expiring cfg s op = some c) :
    ∃ call, op = .controlTask call ∧ (s.children c).status = .idle ∧
      perform cfg s op = (s.advance.startCycle call c).modifyChild c fun child =>
        { child with status := .skipped } := by
  obtain ⟨call, rfl, hrunning, hactive, hidle⟩ := expiring_eq_some h
  refine ⟨call, rfl, hidle.1, ?_⟩
  have hstarted : IdleExpiry cfg call (s.advance.startCycle call c) c :=
    (startCycle_idleExpiry call s.advance c).mpr hidle
  have hstatus : ((s.advance.startCycle call c).children c).status = .idle := hstarted.1
  simp only [perform, controlTask, hrunning, step, hactive, stepChild, hstatus]
  rw [if_pos hstarted.2]

theorem controlTask_steady (h : expiring cfg s (.controlTask call) = none) :
    Steady cfg call.now s (s.controlTask cfg call) := by
  unfold controlTask
  split
  next hrunning =>
    unfold step
    dsimp only
    split
    next =>
      split
      next => exact (advance_steady s).trans (closeExecutionBy_steady call _ _)
      next => exact advance_steady s
    next c hactive =>
      refine (advance_steady s).trans ((Steady.startCycle _ call c).trans
        (stepChild_steady call _ c ?_ ?_))
      · simp [startCycle]
      · rw [startCycle_idleExpiry]
        intro hidle
        have hidle' : IdleExpiry cfg call s c := hidle
        simp [expiring, hrunning, hactive, hidle'] at h
  next =>
    split
    next =>
      split
      next => exact .of_same (fun _ => rfl) (fun _ => rfl) (fun _ => rfl) rfl
      next => exact .refl s
    next => exact closeExecutionBy_steady call _ _
  next => exact .refl s

theorem processOrderFilledEvent_steady (s : Executor n) (event : OrderFilledEvent) :
    Steady cfg now s (s.processOrderFilledEvent cfg event) := by
  unfold processOrderFilledEvent
  split
  next => exact .refl s
  next r _ =>
    split
    next => exact .refl s
    next =>
      have hnote : Steady cfg now s (s.noteFill event) :=
        .of_same (fun _ => rfl) (fun _ => rfl) (fun _ => rfl) rfl
      refine hnote.trans ((credit_steady _ event.orderId).trans ?_)
      unfold cancelOversized
      split
      next => exact .refl _
      next c _ =>
        split
        next => exact .cancelChild _ c _ fun h => by cases h
        next => exact .refl _

theorem processOrderCompletedEvent_steady (s : Executor n) (event : OrderCompletedEvent) :
    Steady cfg now s (s.processOrderCompletedEvent event) := by
  unfold processOrderCompletedEvent
  split
  next => exact .refl s
  next r _ =>
    have hnote : Steady cfg now s ((s.markTerminal event.orderId).noteSummary event) :=
      .of_same (fun _ => rfl) (fun _ => rfl) (fun _ => rfl) rfl
    dsimp only
    split
    next =>
      exact hnote.trans ((credit_steady _ _).trans
        (.setStatus _ r.child rfl rfl (.inl ⟨by simp, by simp⟩)))
    next => exact hnote.trans (credit_steady _ _)

/-- The ack of an expiry cancel of a close sends the market order. -/
theorem processOrderCanceledEvent_steady (h : Clocked cfg call.now s)
    (hclose : cfg.positionAction = .close) (event : OrderCancelledEvent) :
    Steady cfg call.now s (s.processOrderCanceledEvent cfg call event) := by
  unfold processOrderCanceledEvent
  split
  next => exact .refl s
  next r _ =>
    have hmark : Steady cfg call.now s (s.markTerminal event.orderId) :=
      markTerminal_steady s event.orderId
    dsimp only
    split
    next => exact hmark
    next =>
      have hclear : Steady cfg call.now s ((s.markTerminal event.orderId).modifyChild r.child
          fun child => { child with trackedOrder := none }) :=
        hmark.trans (.setStatus _ r.child rfl rfl (.inr rfl))
      have hclocked := h.steady hclear
      split
      next hreason =>
        exact hclear.trans (placeAggressive_steady call _ r.child hreason.1
          (hclocked.expired r.child hreason.1))
      next hnot =>
        split
        next hreason => exact absurd ⟨hreason, hclose⟩ hnot
        next => exact hclear.trans (.setStatus _ r.child rfl rfl (.inl ⟨by simp, by simp⟩))

/-- A rejection retries a market order and otherwise returns the child to idle. -/
theorem processOrderFailedEvent_steady (h : Clocked cfg call.now s)
    {event : MarketOrderFailureEvent} (hevent : isReduceOnlyRejection event = false) :
    Steady cfg call.now s (s.processOrderFailedEvent cfg call event) := by
  unfold processOrderFailedEvent
  split
  next => exact .refl s
  next r _ =>
    have hmark : Steady cfg call.now s (s.markTerminal event.orderId) :=
      markTerminal_steady s event.orderId
    have hclocked := h.steady hmark
    dsimp only
    split
    next => exact hmark
    next =>
      split
      next hreject => simp [hevent] at hreject
      next =>
        have hback : Steady cfg call.now s
            ((s.markTerminal event.orderId).backOff cfg call r.child) :=
          hmark.trans (backOff_steady call _ r.child)
        split
        next hretry =>
          have hreason := hclocked.aggressive r.child hretry.1
          refine hback.trans (placeAggressive_steady call _ r.child ?_
            (hback.expired_mono (h.expired r.child hreason)))
          simpa [backOff] using hreason
        next => exact hback

end Steps

/-! ## Runs of a close -/

/-- An order of this type was submitted for the child. -/
def Executor.Sent (s : Executor n) (c : Fin n) (orderType : OrderType) : Prop :=
  ∃ order ∈ s.placed, order.child = c ∧ order.orderType = orderType

instance (s : Executor n) (c : Fin n) (orderType : OrderType) : Decidable (s.Sent c orderType) :=
  inferInstanceAs (Decidable (∃ order ∈ s.placed, _))

/-- The operation is neither a stop request nor a reduce-only rejection. -/
def Op.unforced : Op → Bool
  | .earlyStop _ _ => false
  | .failed _ event => !isReduceOnlyRejection event
  | _ => true

/-- Fresh ids, no stop, no reduce-only rejection, retries within the maximum. -/
def Undisturbed (cfg : Settings) (s : Executor n) (op : Op) : Prop :=
  FreshId s op ∧ op.unforced = true ∧ (perform cfg s op).currentRetries ≤ cfg.maxRetries

instance (cfg : Settings) (s : Executor n) (op : Op) : Decidable (Undisturbed cfg s op) :=
  inferInstanceAs (Decidable (_ ∧ _))

/-- A child with a submitted limit order and room left becomes skipped only
after a market order was submitted for it once its limit had elapsed. -/
def FallbackKept (cfg : Settings) (s : Executor n) (op : Op) : Prop :=
  let after := perform cfg s op
  ∀ c, (s.children c).status ≠ .skipped → (after.children c).status = .skipped →
    after.Sent c .limit → 0 < after.room cfg c →
      ∃ order ∈ after.placed, order.child = c ∧ order.orderType = .market ∧
        Expired cfg order.placedAt (after.children c)

instance (cfg : Settings) (s : Executor n) (op : Op) : Decidable (FallbackKept cfg s op) := by
  unfold FallbackKept
  infer_instance

/-- A tick finds the current child idle past its limit, with room left, after a
limit order and before any market order. -/
def LosesFallback (cfg : Settings) (s : Executor n) (op : Op) : Prop :=
  ∃ c ∈ expiring cfg s op, s.Sent c .limit ∧ ¬ s.Sent c .market ∧ 0 < s.room cfg c

instance (cfg : Settings) (s : Executor n) (op : Op) : Decidable (LosesFallback cfg s op) :=
  inferInstanceAs (Decidable (∃ c ∈ expiring cfg s op, _))

section Runs

variable {cfg : Settings} {now : ℚ} {s : Executor n} {op : Op}

/-- The last time read once the operation is done. -/
def Op.clock (now : ℚ) (op : Op) : ℚ := (op.call?.map Call.now).getD now

theorem perform_steady (h : Clocked cfg (op.clock now) s) (hclose : cfg.positionAction = .close)
    (hop : op.unforced = true) (hquiet : expiring cfg s op = none) :
    Steady cfg (op.clock now) s (perform cfg s op) := by
  cases op with
  | controlTask call => exact controlTask_steady call hquiet
  | filled event => exact processOrderFilledEvent_steady s event
  | completed event => exact processOrderCompletedEvent_steady s event
  | canceled call event => exact processOrderCanceledEvent_steady call h hclose event
  | failed call event =>
      exact processOrderFailedEvent_steady call h (by simpa [Op.unforced] using hop)
  | earlyStop call keepPosition => cases hop
  | evaluateMaxRetries call =>
      simp only [perform, evaluateMaxRetries]
      split
      · exact closeExecutionBy_steady call s _
      · exact .refl s

/-- The tick that skips a child changes no account and no other child. -/
theorem skip_facts {c : Fin n} (h : expiring cfg s op = some c) :
    Frame s (perform cfg s op) ∧ (s.children c).status = .idle ∧
      ((perform cfg s op).children c).status = .skipped ∧
      ∀ c' ≠ c, (perform cfg s op).children c' = s.children c' := by
  obtain ⟨call, rfl, hidle, heq⟩ := perform_of_expiring h
  rw [heq]
  refine ⟨((Frame.advance s).modifyChild c rfl rfl).modifyChild c rfl rfl, hidle, by simp, ?_⟩
  intro c' hne
  rw [modifyChild_children_ne _ hne, startCycle, modifyChild_children_ne _ hne]
  rfl

theorem Clocked.perform (h : Clocked cfg (op.clock now) s)
    (hclose : cfg.positionAction = .close) (hop : op.unforced = true) :
    Clocked cfg (op.clock now) (perform cfg s op) := by
  cases hskip : expiring cfg s op with
  | none => exact h.steady (perform_steady h hclose hop hskip)
  | some c =>
      obtain ⟨call, rfl, hidle, heq⟩ := perform_of_expiring hskip
      have hstarted : Clocked cfg (Op.clock now (.controlTask call))
          (s.advance.startCycle call c) :=
        h.steady ((advance_steady s).trans (Steady.startCycle _ call c))
      -- the skip sets the status only; the started child's clock is inherited
      have hchild : ∀ {Field : Type} (field : ChildSlot → Field),
          (∀ child status, field { child with status } = field child) → ∀ c',
          field (((s.advance.startCycle call c).modifyChild c fun child =>
            { child with status := .skipped }).children c') =
            field ((s.advance.startCycle call c).children c') := fun field hfield c' =>
        modifyChild_field field _ c (hfield _ _) c'
      have hexpired : ∀ time c', Expired cfg time ((s.advance.startCycle call c).children c') →
          Expired cfg time (((s.advance.startCycle call c).modifyChild c fun child =>
            { child with status := .skipped }).children c') := by
        intro time c' hbefore
        unfold Expired at hbefore ⊢
        rwa [hchild ChildSlot.cycleStart fun _ _ => rfl]
      rw [heq]
      refine ⟨fun order horder hmarket => hexpired _ _ (hstarted.market order horder hmarket),
        fun c' hreason => hexpired _ _ (hstarted.expired c' ?_), fun c' hstatus => ?_⟩
      · rwa [hchild ChildSlot.cancelReason fun _ _ => rfl] at hreason
      · rw [hchild ChildSlot.cancelReason fun _ _ => rfl]
        -- the skipped child is not aggressive any more
        by_cases hc : c' = c
        · subst hc
          simp at hstatus
        · rw [modifyChild_children_ne _ hc] at hstatus
          exact hstarted.aggressive c' hstatus

/-- One step keeps the fallback exactly when it does not lose it. -/
theorem fallbackKept_step_iff (h : Clocked cfg (op.clock now) s)
    (hclose : cfg.positionAction = .close) (hop : op.unforced = true) :
    FallbackKept cfg s op ↔ ¬ LosesFallback cfg s op := by
  cases hskip : expiring cfg s op with
  | none =>
      have hsteady := perform_steady h hclose hop hskip
      refine iff_of_true (fun c hbefore hafter => absurd (hsteady.skipped c hafter) hbefore) ?_
      rintro ⟨c, hc, _⟩
      rw [hskip] at hc
      cases hc
  | some c =>
      obtain ⟨hframe, hidle, hskipped, hother⟩ := skip_facts hskip
      have hclocked := h.perform hclose hop
      have hsent : ∀ kind, (perform cfg s op).Sent c kind ↔ s.Sent c kind := by
        intro kind
        rw [Sent, Sent, hframe.placed]
      constructor
      · rintro hkept ⟨c', hc', hlimit, hmarket, hroom⟩
        obtain rfl : c = c' := Option.some.inj (hskip.symm.trans hc')
        obtain ⟨order, horder, hchild, hkind, _⟩ := hkept c (by simp [hidle]) hskipped
          ((hsent .limit).mpr hlimit) (by rwa [hframe.room_eq])
        exact hmarket ((hsent .market).mp ⟨order, horder, hchild, hkind⟩)
      -- only the child the tick skips can be newly skipped
      · intro hkeeps c' hbefore hafter hlimit hroom
        by_cases hc : c' = c
        · subst hc
          have hmarket : s.Sent c' .market := by
            by_contra hnone
            exact hkeeps ⟨c', hskip, (hsent .limit).mp hlimit, hnone, by
              rwa [hframe.room_eq] at hroom⟩
          obtain ⟨order, horder, hchild, hkind⟩ := (hsent .market).mpr hmarket
          exact ⟨order, horder, hchild, hkind, hchild ▸ hclocked.market order horder hkind⟩
        · rw [hother c' hc] at hafter
          exact absurd hafter hbefore

theorem fallback_iff_from (hclose : cfg.positionAction = .close) {ops : List Op}
    (h : Clocked cfg now s) (htimes : TimesFrom now ops)
    (hops : Along (perform cfg) (Undisturbed cfg) s ops) :
    Along (perform cfg) (FallbackKept cfg) s ops ↔
      Along (perform cfg) (fun s op => ¬ LosesFallback cfg s op) s ops := by
  induction ops generalizing s now with
  | nil => exact Iff.rfl
  | cons op rest ih =>
      have hclock : now ≤ op.clock now ∧ TimesFrom (op.clock now) rest := by
        unfold TimesFrom at htimes
        unfold Op.clock
        cases hcall : op.call? with
        | none => exact ⟨le_refl now, by simpa [hcall] using htimes⟩
        | some call => simpa [hcall] using htimes
      have hnow := h.later hclock.1
      exact and_congr (fallbackKept_step_iff hnow hclose hops.1.2.1)
        (ih (hnow.perform hclose hops.1.2.1) hclock.2 hops.2)

end Runs

/-- A run of a close keeps every child's fallback iff no tick finds the current
child idle past its limit between its limit order and its market order. -/
theorem fallback_kept_iff (cfg : Settings) (slots : List ChildSlot)
    (hslots : buildChildSlots cfg = .ok slots) (hclose : cfg.positionAction = .close)
    (ops : List Op) (start : ℚ) (htimes : TimesFrom start ops)
    (hops : Along (perform cfg) (Undisturbed cfg) (init slots) ops) :
    Along (perform cfg) (FallbackKept cfg) (init slots) ops ↔
      Along (perform cfg) (fun s op => ¬ LosesFallback cfg s op) (init slots) ops := by
  have hslot : ∀ c, ((init slots).children c).cancelReason = .none ∧
      ((init slots).children c).status = .idle := by
    intro c
    have hfresh := (buildChildSlots_fresh hslots (List.getElem_mem c.2)).1
    simp only [init, List.get_eq_getElem]
    rw [hfresh]
    exact ⟨rfl, rfl⟩
  have hinit : Clocked cfg start (init slots) := by
    refine ⟨fun order horder => (by cases horder), fun c hreason => ?_, fun c hstatus => ?_⟩
    · rw [(hslot c).1] at hreason
      cases hreason
    · rw [(hslot c).2] at hstatus
      cases hstatus
  exact fallback_iff_from hclose hinit htimes hops

/-- The expiry cancel is acknowledged and the market order goes out. -/
def expiryRun : List Op :=
  [ .controlTask { now := 0, bestBid := some 100, orderId := "limit" },
    .controlTask { now := 5, bestBid := some 100, orderId := "market" },
    .canceled { now := 6, orderId := "market" } { orderId := "limit" },
    .failed { now := 7, orderId := "retry" } { orderId := "market" } ]

theorem fallback_kept_iff_expiryRun :
    Along (perform sampleConfig) (FallbackKept sampleConfig) (init [{ target := 1 }]) expiryRun :=
  (fallback_kept_iff sampleConfig [{ target := 1 }] (by decide +kernel) rfl expiryRun 0
    (by decide +kernel) (by decide +kernel)).mpr (by decide +kernel)

/-- A refresh cancel is sent before the limit and acknowledged after it. -/
def straddlingRun : List Op :=
  [ .controlTask { now := 0, bestBid := some 100, orderId := "limit" },
    .controlTask { now := 4, bestBid := some 100, orderId := "unused" },
    .canceled { now := 6, orderId := "unused" } { orderId := "limit" },
    .controlTask { now := 13 / 2, bestBid := some 100, orderId := "unused" } ]

theorem straddling_refresh_loses_fallback :
    buildChildSlots sampleConfig = .ok [{ target := 1 }] ∧
      sampleConfig.positionAction = .close ∧ TimesFrom 0 straddlingRun ∧
      Along (perform sampleConfig) (Undisturbed sampleConfig) (init [{ target := 1 }])
        straddlingRun ∧
      ¬ Along (perform sampleConfig) (FallbackKept sampleConfig) (init [{ target := 1 }])
        straddlingRun := by
  decide +kernel

end Opms.PassiveAggressive
