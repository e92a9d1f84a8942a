import Opms.Foundation.Streak
import Opms.Resilience

/-! # When the watchdog trips

The watchdog keeps one time stamp. Read after a cooldown has been accounted
for, it is the start of the unbroken run of observations that miss a side, so an
observation trips exactly when that run has lasted for the timeout.
-/

namespace Opms.QuoteLivenessWatchdog

open Foundation

inductive Call
  | observe (now : ℚ) (expected live : Finset TradeType)
  | suspend
  | trip (now : ℚ) (expected live : Finset TradeType)
  deriving DecidableEq

def Call.time? : Call → Option ℚ
  | .observe now _ _ => some now
  | .suspend => none
  | .trip now _ _ => some now

def step (watchdog : QuoteLivenessWatchdog) : Call → QuoteLivenessWatchdog
  | .observe now expected live => (watchdog.observe now expected live).2
  | .suspend => watchdog.suspend
  | .trip now expected live => watchdog.trip now expected live

def fresh (timeoutS recoveryCooldownS : ℚ) : QuoteLivenessWatchdog :=
  { timeoutS := timeoutS, recoveryCooldownS := recoveryCooldownS }

/-- The call performs a new trip. -/
def Trips (watchdog : QuoteLivenessWatchdog) (call : Call) : Prop :=
  (watchdog.step call).trips = watchdog.trips + 1

/-- An observation that finds the circuit closed and a quoted side missing. -/
def Misses (watchdog : QuoteLivenessWatchdog) : Call → Prop
  | .observe now expected live =>
      watchdog.allowQuotes now = true ∧ expected ≠ ∅ ∧ ¬ expected ⊆ live
  | .suspend => False
  | .trip _ _ _ => False

/-- A miss that leaves the run of misses unbroken. -/
def MissesOn (watchdog : QuoteLivenessWatchdog) (call : Call) : Prop :=
  watchdog.Misses call ∧ ¬ watchdog.Trips call

instance (watchdog : QuoteLivenessWatchdog) : ∀ call, Decidable (watchdog.Misses call)
  | .observe _ _ _ => inferInstanceAs (Decidable (_ ∧ _))
  | .suspend => .isFalse id
  | .trip _ _ _ => .isFalse id

instance (watchdog : QuoteLivenessWatchdog) (call : Call) : Decidable (watchdog.MissesOn call) :=
  inferInstanceAs (Decidable (_ ∧ ¬ (_ = _)))

/-- When the unbroken run of misses at the end of the calls began. -/
def missingFrom (watchdog : QuoteLivenessWatchdog) (calls : List Call) : Option ℚ :=
  ((streak step MissesOn watchdog calls).filterMap Call.time?).head?

/-! ## One call -/

variable {watchdog : QuoteLivenessWatchdog}

theorem recovered_eq (watchdog : QuoteLivenessWatchdog) :
    watchdog.recovered =
      { watchdog with
        openUntil := 0
        missingSince := if watchdog.openUntil = 0 then watchdog.missingSince else none } := by
  rw [recovered, ite_not]
  split
  next hzero => rw [← hzero]
  next => rfl

theorem recovered_missingSince (watchdog : QuoteLivenessWatchdog) :
    watchdog.recovered.missingSince =
      if watchdog.openUntil = 0 then watchdog.missingSince else none := by
  rw [recovered_eq]

@[simp] theorem recovered_trips (watchdog : QuoteLivenessWatchdog) :
    watchdog.recovered.trips = watchdog.trips := by rw [recovered_eq]

@[simp] theorem recovered_timeoutS (watchdog : QuoteLivenessWatchdog) :
    watchdog.recovered.timeoutS = watchdog.timeoutS := by rw [recovered_eq]

/-- How an observation ends. -/
inductive Observed (watchdog : QuoteLivenessWatchdog) (now : ℚ) (expected live : Finset TradeType)
    (next : QuoteLivenessWatchdog) : Prop
  | quiet (hmiss : ¬ watchdog.Misses (.observe now expected live))
      (htrips : next.trips = watchdog.trips) (hstart : 0 < now → next.recovered.missingSince = none)
  | missing (hmiss : watchdog.Misses (.observe now expected live))
      (hshort : now - watchdog.recovered.missingSince.getD now < watchdog.timeoutS)
      (htrips : next.trips = watchdog.trips)
      (hstart : next.recovered.missingSince = some (watchdog.recovered.missingSince.getD now))
  | tripped (hmiss : watchdog.Misses (.observe now expected live))
      (hlong : watchdog.timeoutS ≤ now - watchdog.recovered.missingSince.getD now)
      (htrips : next.trips = watchdog.trips + 1)
      (hopen : next.openUntil = now + watchdog.recoveryCooldownS)

/-- A miss starts the clock or is measured against it. -/
theorem noteMissing_cases (htimeout : 0 < watchdog.timeoutS) (now : ℚ) :
    (now - watchdog.missingSince.getD now < watchdog.timeoutS ∧
        (watchdog.noteMissing now).2 =
          { watchdog with missingSince := some (watchdog.missingSince.getD now) }) ∨
      (watchdog.timeoutS ≤ now - watchdog.missingSince.getD now ∧
        (watchdog.noteMissing now).2 =
          { watchdog with
            trips := watchdog.trips + 1, openUntil := now + watchdog.recoveryCooldownS }) := by
  rw [noteMissing]
  split
  next hnone =>
    refine .inl ⟨?_, by rw [hnone, Option.getD_none]⟩
    rwa [hnone, Option.getD_none, sub_self]
  next since hsince =>
    rw [hsince, Option.getD_some]
    split
    next hshort => exact .inl ⟨hshort, by rw [← hsince]⟩
    next hlong => exact .inr ⟨not_lt.mp hlong, rfl⟩

theorem observed (htimeout : 0 < watchdog.timeoutS) (now : ℚ) (expected live : Finset TradeType) :
    Observed watchdog now expected live (watchdog.observe now expected live).2 := by
  unfold observe
  dsimp only
  split
  next hidle =>
    refine .quiet (fun hmiss => hmiss.2.1 hidle) rfl fun _ => ?_
    rw [recovered_missingSince, ite_self]
  next hexpected =>
    split
    next hblocked =>
      have hlater : now < watchdog.openUntil := by
        simpa [allowQuotes] using hblocked
      refine .quiet (fun hmiss => ?_) rfl fun hpositive => ?_
      · exact not_lt.mpr ((allowQuotes_iff _ _).mp hmiss.1) hlater
      · exact (recovered_missingSince _).trans (if_neg (hpositive.trans hlater).ne')
    next hallowed =>
      have hallowed : watchdog.allowQuotes now = true := by
        simpa [allowQuotes] using hallowed
      split
      next hcovered =>
        refine .quiet (fun hmiss => hmiss.2.2 hcovered) ?_ fun _ => ?_
        · rw [recovered]
          split
          next => rfl
          next => rfl
        · rw [recovered_missingSince, ite_self]
      next hmissing =>
        have hmiss : watchdog.Misses (.observe now expected live) :=
          ⟨hallowed, hexpected, hmissing⟩
        set seen : QuoteLivenessWatchdog :=
          { watchdog with expectedSides := expected, liveSides := live }
        have hseen : seen.recovered.missingSince = watchdog.recovered.missingSince := by
          rw [recovered_missingSince, recovered_missingSince]
        obtain ⟨hshort, hnext⟩ | ⟨hlong, hnext⟩ :=
          noteMissing_cases ((recovered_timeoutS seen).symm ▸ htimeout) now
        · rw [hseen, recovered_timeoutS] at hshort
          refine .missing hmiss hshort ?_ ?_
          · rw [hnext]
            exact recovered_trips seen
          · rw [hnext, recovered_missingSince, ← hseen]
            exact if_pos (recovered_openUntil seen)
        · rw [hseen, recovered_timeoutS] at hlong
          refine .tripped hmiss hlong ?_ ?_
          · rw [hnext]
            exact congrArg (· + 1) (recovered_trips seen)
          · rw [hnext]
            exact congrArg (now + ·) (recovered_recoveryCooldownS seen)

/-- An observation trips iff it misses a side and the clock, read after any
cooldown, has run for the timeout. -/
theorem trips_observe_iff (htimeout : 0 < watchdog.timeoutS) (now : ℚ)
    (expected live : Finset TradeType) :
    watchdog.Trips (.observe now expected live) ↔
      watchdog.Misses (.observe now expected live) ∧
        watchdog.timeoutS ≤ now - watchdog.recovered.missingSince.getD now := by
  rw [Trips, step]
  cases observed htimeout now expected live with
  | quiet hmiss htrips hstart =>
      refine iff_of_false (fun hnew => ?_) fun hlong => hmiss hlong.1
      omega
  | missing hmiss hshort htrips hstart =>
      refine iff_of_false (fun hnew => ?_) fun hlong => absurd hlong.2 (not_le.mpr hshort)
      omega
  | tripped hmiss hlong htrips hopen => exact iff_of_true htrips ⟨hmiss, hlong⟩

/-- A call starts the clock, lets it run or clears it, as it starts, prolongs or
cuts the run of misses. -/
theorem recovered_step (htimeout : 0 < watchdog.timeoutS)
    (hcooldown : 0 ≤ watchdog.recoveryCooldownS) (call : Call)
    (hpositive : ∀ time ∈ call.time?, 0 < time) :
    (watchdog.step call).recovered.missingSince =
      if watchdog.MissesOn call then some (watchdog.recovered.missingSince.getD (call.time?.getD 0))
      else none := by
  cases call with
  | observe now expected live =>
      have hnow : 0 < now := hpositive now rfl
      cases observed htimeout now expected live with
      | quiet hmiss htrips hstart =>
          rw [if_neg fun hon => hmiss hon.1]
          exact hstart hnow
      | missing hmiss hshort htrips hstart =>
          have hquiet : ¬ watchdog.Trips (.observe now expected live) :=
            fun hnew => absurd (htrips.symm.trans hnew) (Nat.succ_ne_self _).symm
          rw [if_pos ⟨hmiss, hquiet⟩]
          exact hstart
      | tripped hmiss hlong htrips hopen =>
          rw [if_neg fun hon => hon.2 htrips, step, recovered_missingSince, hopen]
          exact if_neg (add_pos_of_pos_of_nonneg hnow hcooldown).ne'
  | suspend =>
      rw [if_neg fun hon => hon.1, step, recovered_missingSince]
      exact ite_self _
  | trip now expected live =>
      rw [if_neg fun hon => hon.1, step, recovered_missingSince]
      exact ite_self _

/-- The watchdog has the given configuration. -/
def Configured (timeoutS recoveryCooldownS : ℚ) (watchdog : QuoteLivenessWatchdog) : Prop :=
  watchdog.timeoutS = timeoutS ∧ watchdog.recoveryCooldownS = recoveryCooldownS

theorem Configured.noteMissing {timeoutS recoveryCooldownS : ℚ}
    (hconfigured : watchdog.Configured timeoutS recoveryCooldownS) (now : ℚ) :
    (watchdog.noteMissing now).2.Configured timeoutS recoveryCooldownS := by
  unfold QuoteLivenessWatchdog.noteMissing
  split
  next => exact hconfigured
  next =>
    split
    next => exact hconfigured
    next => exact hconfigured

theorem Configured.step {timeoutS recoveryCooldownS : ℚ}
    (hconfigured : watchdog.Configured timeoutS recoveryCooldownS) (call : Call) :
    (watchdog.step call).Configured timeoutS recoveryCooldownS := by
  cases call with
  | observe now expected live =>
      set seen : QuoteLivenessWatchdog :=
        { watchdog with expectedSides := expected, liveSides := live } with hseen
      have hrecovered : seen.recovered.Configured timeoutS recoveryCooldownS :=
        ⟨(recovered_timeoutS seen).trans hconfigured.1,
          (recovered_recoveryCooldownS seen).trans hconfigured.2⟩
      simp only [QuoteLivenessWatchdog.step, observe, ← hseen]
      split
      next => exact hconfigured
      next =>
        split
        next => exact hconfigured
        next =>
          split
          next => exact hrecovered
          next => exact hrecovered.noteMissing now
  | suspend => exact hconfigured
  | trip now expected live => exact hconfigured

/-! ## Whole runs -/

/-- The clock is the start of the unbroken run of misses. -/
theorem recovered_run {timeoutS recoveryCooldownS : ℚ} (htimeout : 0 < timeoutS)
    (hcooldown : 0 ≤ recoveryCooldownS) {calls : List Call}
    (hpositive : ∀ time ∈ calls.filterMap Call.time?, 0 < time) :
    (run step (fresh timeoutS recoveryCooldownS) calls).recovered.missingSince =
      (fresh timeoutS recoveryCooldownS).missingFrom calls := by
  induction calls using List.reverseRecOn with
  | nil => rfl
  | append_singleton calls call ih =>
      rw [List.filterMap_append, List.forall_mem_append] at hpositive
      obtain ⟨hcalls, hcall⟩ := hpositive
      have hconfigured : (run step (fresh timeoutS recoveryCooldownS) calls).Configured
          timeoutS recoveryCooldownS :=
        run_invariant_always _ (fun _ input hstate => hstate.step input) ⟨rfl, rfl⟩ calls
      have hstep := recovered_step (by rwa [hconfigured.1]) (by rwa [hconfigured.2]) call
        fun time htime => hcall time (by simpa using htime)
      rw [run_append, run_cons, run_nil, hstep, ih hcalls, missingFrom, missingFrom, streak_concat]
      split
      next hon =>
        rw [List.filterMap_append, List.head?_append]
        cases call with
        | observe now expected live =>
            cases ((streak step MissesOn (fresh timeoutS recoveryCooldownS) calls).filterMap
              Call.time?).head? with
            | none => rfl
            | some start => rfl
        | suspend => exact absurd hon.1 id
        | trip now expected live => exact absurd hon.1 id
      next => rfl

/-- A trip holds the circuit open for the cooldown. -/
theorem Trips.openUntil {call : Call} {time : ℚ} (htimeout : 0 < watchdog.timeoutS)
    (htrips : watchdog.Trips call) (htime : call.time? = some time) :
    time + watchdog.recoveryCooldownS ≤ (watchdog.step call).openUntil := by
  cases call with
  | observe now expected live =>
      obtain rfl := Option.some.inj htime
      rw [Trips, step] at htrips
      cases observed htimeout now expected live with
      | quiet hmiss hsame hstart => omega
      | missing hmiss hshort hsame hstart => omega
      | tripped hmiss hlong hnew hopen => exact hopen.ge
  | suspend => cases htime
  | trip now expected live =>
      obtain rfl := Option.some.inj htime
      exact le_max_right _ _

/-- Until then no call closes the circuit. -/
theorem step_openUntil {bound : ℚ} (hopen : bound ≤ watchdog.openUntil) {call : Call}
    (htime : ∀ time ∈ call.time?, time < bound) : bound ≤ (watchdog.step call).openUntil := by
  cases call with
  | observe now expected live =>
      have hnow : now < watchdog.openUntil := (htime now rfl).trans_le hopen
      have hblocked : ∀ seen : QuoteLivenessWatchdog, seen.openUntil = watchdog.openUntil →
          seen.allowQuotes now = false := by
        intro seen hseen
        rwa [allowQuotes, hseen, decide_eq_false_iff_not, not_le]
      simp only [step, observe]
      split
      next => exact hopen
      next =>
        split
        next => exact hopen
        next hallowed => exact absurd (congrArg not (hblocked _ rfl)) hallowed
  | suspend => exact hopen
  | trip now expected live => exact hopen.trans (le_max_left _ _)

/-- An observation trips exactly when the circuit is closed, a quoted side is
missing and the unbroken run of misses has lasted for the timeout. A trip stops
the quotes for the whole cooldown, whatever is called meanwhile. -/
theorem watchdog_trips_iff {timeoutS recoveryCooldownS : ℚ} (htimeout : 0 < timeoutS)
    (hcooldown : 0 ≤ recoveryCooldownS) {calls : List Call}
    (hpositive : ∀ time ∈ calls.filterMap Call.time?, 0 < time) :
    let start := fresh timeoutS recoveryCooldownS
    (∀ before now expected live after, calls = before ++ .observe now expected live :: after →
      ((run step start before).Trips (.observe now expected live) ↔
        (run step start before).Misses (.observe now expected live) ∧
          timeoutS ≤ now - (start.missingFrom before).getD now)) ∧
    ∀ before call middle after time now, calls = before ++ call :: middle ++ after →
      (run step start before).Trips call → call.time? = some time →
      time ≤ now → now < time + recoveryCooldownS →
      (∀ later ∈ middle.filterMap Call.time?, later ≤ now) →
        (run step start (before ++ call :: middle)).allowQuotes now = false := by
  intro start
  have hconfigured : ∀ before, (run step start before).Configured timeoutS recoveryCooldownS :=
    run_invariant_always _ (fun _ input hstate => hstate.step input) ⟨rfl, rfl⟩
  constructor
  · rintro before now expected live after rfl
    rw [List.filterMap_append, List.forall_mem_append] at hpositive
    have htimeout' : 0 < (run step start before).timeoutS := by rwa [(hconfigured before).1]
    have hiff := trips_observe_iff htimeout' now expected live
    rwa [(hconfigured before).1, recovered_run htimeout hcooldown hpositive.1] at hiff
  · intro before call middle after time now _ htrips htime hle hlt hlater
    have hopen := htrips.openUntil (by rwa [(hconfigured before).1]) htime
    rw [(hconfigured before).2] at hopen
    have halong : Along step (fun _ call => ∀ time' ∈ call.time?, time' < time + recoveryCooldownS)
        (step (run step start before) call) middle :=
      Along.iff_forall_mem.mpr fun other hother time' htime' =>
        (hlater time' (List.mem_filterMap.mpr ⟨other, hother, htime'⟩)).trans_lt hlt
    have hbound := run_invariant
      (fun state : QuoteLivenessWatchdog => time + recoveryCooldownS ≤ state.openUntil)
      (fun (state : QuoteLivenessWatchdog) (input : Call) hstate htimes =>
        step_openUntil hstate htimes) hopen halong
    rw [run_append, run_cons, allowQuotes, decide_eq_false_iff_not, not_le]
    exact hlt.trans_le hbound

/-- A side is missing from 100 on, also after a trip at 115. -/
def sampleCalls : List Call :=
  [.observe 100 {.buy, .sell} ∅, .observe (1149 / 10) {.buy, .sell} {.buy},
    .observe 115 {.buy, .sell} {.buy}, .observe 120 {.buy, .sell} {.buy, .sell}]

theorem missing_side_trips_after_timeout :
    (run step (fresh 15 30) (sampleCalls.take 2)).Trips (.observe 115 {.buy, .sell} {.buy}) ∧
      (run step (fresh 15 30) sampleCalls).allowQuotes (1449 / 10) = false := by
  have hpositive : ∀ time ∈ sampleCalls.filterMap Call.time?, 0 < time := by decide +kernel
  have hruns := watchdog_trips_iff (by decide +kernel : (0 : ℚ) < 15)
    (by decide +kernel : (0 : ℚ) ≤ 30) hpositive
  have htrips : (run step (fresh 15 30) (sampleCalls.take 2)).Trips
      (.observe 115 {.buy, .sell} {.buy}) :=
    (hruns.1 (sampleCalls.take 2) 115 {.buy, .sell} {.buy} (sampleCalls.drop 3) rfl).mpr
      (by decide +kernel)
  have hsplit : sampleCalls.take 2 ++ .observe 115 {.buy, .sell} {.buy} :: sampleCalls.drop 3 =
      sampleCalls := rfl
  have hblocked := hruns.2 (sampleCalls.take 2) (.observe 115 {.buy, .sell} {.buy})
    (sampleCalls.drop 3) [] 115 (1449 / 10) rfl htrips rfl (by decide +kernel) (by decide +kernel)
    (by decide +kernel)
  rw [hsplit] at hblocked
  exact ⟨htrips, hblocked⟩

end Opms.QuoteLivenessWatchdog
