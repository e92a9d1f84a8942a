import Opms.Foundation.Streak
import Opms.Resilience
import Mathlib.Algebra.Order.Ring.Rat
import Mathlib.Tactic.Linarith

/-! # Backing off and tripping

The circuit counts the failures since the last success. The delay doubles with
that count and is clamped only after the power has been computed, and whether
the circuit has tripped is decided anew by each failure.
-/

namespace Opms.VenueCircuitBreaker

open Foundation

inductive Call
  | failure (now : ℚ) (error : VenueError)
  | success

def Call.isFailure : Call → Bool
  | .failure _ _ => true
  | .success => false

def Call.isRateLimit : Call → Bool
  | .failure _ error => isRateLimitError error
  | .success => false

def step (circuit : VenueCircuitBreaker) : Call → VenueCircuitBreaker
  | .failure now error => circuit.recordFailure now error
  | .success => circuit.recordSuccess

def fresh (failureThreshold : ℤ) (baseBackoffS maxBackoffS : ℚ) : VenueCircuitBreaker :=
  { failureThreshold := failureThreshold
    baseBackoffS := baseBackoffS
    maxBackoffS := maxBackoffS }

/-- The failures since the last success. -/
def failures (circuit : VenueCircuitBreaker) (calls : List Call) : List Call :=
  streak step (fun _ call => call.isFailure = true) circuit calls

variable {start : VenueCircuitBreaker}

theorem failures_append {first last : List Call} (hlast : ∀ call ∈ last, call.isFailure = true) :
    start.failures (first ++ last) = start.failures first ++ last :=
  streak_append _ _ _ (Along.iff_forall_mem.mpr hlast)

theorem failures_success (calls : List Call) : start.failures (calls ++ [.success]) = [] := by
  rw [failures, streak_concat]
  exact if_neg Bool.false_ne_true

/-- The failures end the run. -/
theorem exists_failures (start : VenueCircuitBreaker) (calls : List Call) :
    ∃ before, calls = before ++ start.failures calls ∧
      ∀ call ∈ start.failures calls, call.isFailure = true := by
  obtain ⟨before, hsplit, halong⟩ := exists_streak step (fun _ call => call.isFailure = true)
    start calls
  exact ⟨before, hsplit, Along.iff_forall_mem.mp halong⟩

theorem consecutiveFailures_run (hstart : start.consecutiveFailures = 0) (calls : List Call) :
    (run step start calls).consecutiveFailures = (start.failures calls).length := by
  induction calls using List.reverseRecOn with
  | nil => exact hstart
  | append_singleton calls call ih =>
      rw [run_append, run_cons, run_nil]
      cases call with
      | failure now error =>
          rw [failures_append (by simp [Call.isFailure]), List.length_append, ← ih]
          rfl
      | success =>
          rw [failures_success]
          rfl

/-- The two circuits are configured alike. -/
def SameConfig (circuit other : VenueCircuitBreaker) : Prop :=
  circuit.failureThreshold = other.failureThreshold ∧ circuit.baseBackoffS = other.baseBackoffS ∧
    circuit.maxBackoffS = other.maxBackoffS

theorem sameConfig_run (start : VenueCircuitBreaker) (calls : List Call) :
    (run step start calls).SameConfig start := by
  refine run_invariant_always (SameConfig · start) (fun circuit call hsame => ?_) ⟨rfl, rfl, rfl⟩
    calls
  cases call with
  | failure now error => exact hsame
  | success => exact hsame

/-! ## Backing off -/

/-- A failure returned the delay, which is within its bounds and closes the
circuit for requests until it has passed. -/
structure BackedOff (circuit : VenueCircuitBreaker) (now : ℚ) (error : VenueError) (delay : ℚ) :
    Prop where
  returned : circuit.failureDelay error = some delay
  least : circuit.baseBackoffS ≤ delay
  most : delay ≤ circuit.maxBackoffS
  blocks : ∀ later, (circuit.recordFailure now error).allowRequest later = false ↔
    later < now + delay

/-- Every failure of the run backs off, and from one without a `Retry-After` on
the delays do not shrink before the next success. -/
def BacksOff (start : VenueCircuitBreaker) (calls : List Call) : Prop :=
  (∀ before now error after, calls = before ++ .failure now error :: after →
    ∃ delay, (run step start before).BackedOff now error delay) ∧
  ∀ before now error middle now' error' after delay delay',
    calls = before ++ .failure now error :: (middle ++ .failure now' error' :: after) →
    (∀ call ∈ middle, call.isFailure = true) → error.retryAfterHeader = none →
    (run step start before).failureDelay error = some delay →
    (run step start (before ++ .failure now error :: middle)).failureDelay error' = some delay' →
      delay ≤ delay'

variable {circuit : VenueCircuitBreaker} {error : VenueError} {delay : ℚ}

/-- The delay of a failure that does not raise. -/
def clampedDelay (circuit : VenueCircuitBreaker) (error : VenueError) : ℚ :=
  min (max (min (circuit.baseBackoffS * 2 ^ circuit.consecutiveFailures) circuit.maxBackoffS)
    ((if isRateLimitError error then retryAfter error else none).getD 0)) circuit.maxBackoffS

theorem failureDelay_eq_some_iff : circuit.failureDelay error = some delay ↔
    circuit.consecutiveFailures < 1024 ∧ circuit.clampedDelay error = delay := by
  rw [failureDelay, floatTimesPow, Option.map_eq_some_iff]
  simp only [Option.ite_none_right_eq_some, Option.some.injEq]
  constructor
  · rintro ⟨product, ⟨hcount, rfl⟩, hdelay⟩
    exact ⟨hcount, hdelay⟩
  · rintro ⟨hcount, hdelay⟩
    exact ⟨_, ⟨hcount, rfl⟩, hdelay⟩

theorem exponential_le_clampedDelay (circuit : VenueCircuitBreaker) (error : VenueError) :
    min (circuit.baseBackoffS * 2 ^ circuit.consecutiveFailures) circuit.maxBackoffS ≤
      circuit.clampedDelay error :=
  le_min (le_max_left _ _) (min_le_right _ _)

theorem clampedDelay_of_no_header (hbase : 0 ≤ circuit.baseBackoffS)
    (hmax : 0 ≤ circuit.maxBackoffS) (hheader : error.retryAfterHeader = none) :
    circuit.clampedDelay error =
      min (circuit.baseBackoffS * 2 ^ circuit.consecutiveFailures) circuit.maxBackoffS := by
  have hnone : (if isRateLimitError error then retryAfter error else none) = none := by
    rw [retryAfter, hheader, Option.map_none, ite_self]
  rw [clampedDelay, hnone, Option.getD_none, max_eq_left, min_eq_left (min_le_right _ _)]
  exact le_min (mul_nonneg hbase (pow_nonneg zero_le_two _)) hmax

/-- A failure backs off iff it is met with fewer than 1024 failures before it. -/
theorem backedOff_iff (hbase : 0 < circuit.baseBackoffS)
    (hmax : circuit.baseBackoffS ≤ circuit.maxBackoffS) (now : ℚ) (error : VenueError) :
    (∃ delay, circuit.BackedOff now error delay) ↔ circuit.consecutiveFailures < 1024 := by
  constructor
  · rintro ⟨delay, hbacked⟩
    exact (failureDelay_eq_some_iff.mp hbacked.returned).1
  · intro hcount
    have hreturned : circuit.failureDelay error = some (circuit.clampedDelay error) :=
      failureDelay_eq_some_iff.mpr ⟨hcount, rfl⟩
    refine ⟨circuit.clampedDelay error, hreturned, ?_, min_le_right _ _, fun later => ?_⟩
    · refine le_trans (le_min ?_ hmax) (circuit.exponential_le_clampedDelay error)
      exact le_mul_of_one_le_right hbase.le (one_le_pow₀ one_le_two)
    · rw [allowRequest, decide_eq_false_iff_not, recordFailure, hreturned]
      exact not_le

/-- More failures do not shorten the delay. -/
theorem clampedDelay_mono {earlier later : VenueCircuitBreaker} {error' : VenueError}
    (hbase : 0 ≤ earlier.baseBackoffS) (hmax : 0 ≤ earlier.maxBackoffS)
    (hsame : later.baseBackoffS = earlier.baseBackoffS ∧ later.maxBackoffS = earlier.maxBackoffS)
    (hcount : earlier.consecutiveFailures ≤ later.consecutiveFailures)
    (hheader : error.retryAfterHeader = none) :
    earlier.clampedDelay error ≤ later.clampedDelay error' := by
  rw [clampedDelay_of_no_header hbase hmax hheader]
  refine le_trans ?_ (later.exponential_le_clampedDelay error')
  rw [hsame.1, hsame.2]
  refine min_le_min_right _ (mul_le_mul_of_nonneg_left ?_ hbase)
  exact pow_le_pow_right₀ one_le_two hcount

section Run

variable (hbase : 0 < start.baseBackoffS) (hmax : start.baseBackoffS ≤ start.maxBackoffS)
  (hstart : start.consecutiveFailures = 0)

include hbase hmax hstart

/-- A failure after a run backs off iff fewer than 1024 come in a row before it. -/
theorem backedOff_run_iff (before : List Call) (now : ℚ) (error : VenueError) :
    (∃ delay, (run step start before).BackedOff now error delay) ↔
      (start.failures before).length < 1024 := by
  obtain ⟨-, hbase', hmax'⟩ := sameConfig_run start before
  rw [← consecutiveFailures_run hstart before]
  exact backedOff_iff (hbase.trans_eq hbase'.symm) (by rwa [hbase', hmax']) now error

/-- Until the next success no failure shortens the delay of one without a header. -/
theorem clampedDelay_run_mono (before : List Call) (now : ℚ) {middle : List Call}
    {error' : VenueError} (hmiddle : ∀ call ∈ middle, call.isFailure = true)
    (hheader : error.retryAfterHeader = none) :
    (run step start before).clampedDelay error ≤
      (run step start (before ++ .failure now error :: middle)).clampedDelay error' := by
  obtain ⟨-, hbase', hmax'⟩ := sameConfig_run start before
  obtain ⟨-, hbase'', hmax''⟩ := sameConfig_run start (before ++ .failure now error :: middle)
  have hfailed : ∀ call ∈ Call.failure now error :: middle, call.isFailure = true :=
    List.forall_mem_cons.mpr ⟨rfl, hmiddle⟩
  refine clampedDelay_mono (hbase.le.trans_eq hbase'.symm)
    ((hbase.le.trans hmax).trans_eq hmax'.symm)
    ⟨hbase''.trans hbase'.symm, hmax''.trans hmax'.symm⟩ ?_ hheader
  rw [consecutiveFailures_run hstart, consecutiveFailures_run hstart, failures_append hfailed,
    List.length_append]
  exact Nat.le_add_right _ _

/-- Where every failure backs off, no more than 1024 come in a row. -/
theorem length_le_of_backsOff {before inARow after : List Call}
    (hbacks : start.BacksOff (before ++ inARow ++ after))
    (hfailures : ∀ call ∈ inARow, call.isFailure = true) : inARow.length ≤ 1024 := by
  by_contra hlong
  -- the failure after the first 1024 of them does not back off
  have hsplit := List.take_append_drop 1024 inARow
  cases hdrop : inARow.drop 1024 with
  | nil => exact hlong (List.drop_eq_nil_iff.mp hdrop)
  | cons call rest =>
      rw [hdrop] at hsplit
      rw [← hsplit, List.forall_mem_append, List.forall_mem_cons] at hfailures
      obtain ⟨hfirst, hcall, -⟩ := hfailures
      cases call with
      | failure now error =>
          have hcalls : before ++ inARow ++ after =
              (before ++ inARow.take 1024) ++ .failure now error :: (rest ++ after) := by
            rw [List.append_assoc, List.append_assoc, ← List.cons_append,
              ← List.append_assoc (inARow.take 1024), hsplit]
          have hbound := (backedOff_run_iff hbase hmax hstart (before ++ inARow.take 1024) now
            error).mp (hbacks.1 _ now error _ hcalls)
          rw [failures_append hfirst, List.length_append, List.length_take] at hbound
          omega
      | success => cases hcall

end Run

/-- Backing off holds along a run iff no more than 1024 failures come in a row:
the next one would double beyond the largest float. -/
theorem backsOff_iff (failureThreshold : ℤ) {baseBackoffS maxBackoffS : ℚ}
    (hbase : 0 < baseBackoffS) (hmax : baseBackoffS ≤ maxBackoffS) (calls : List Call) :
    (fresh failureThreshold baseBackoffS maxBackoffS).BacksOff calls ↔
      ∀ before inARow after, calls = before ++ inARow ++ after →
        (∀ call ∈ inARow, call.isFailure = true) → inARow.length ≤ 1024 := by
  set start := fresh failureThreshold baseBackoffS maxBackoffS
  have hstart : start.consecutiveFailures = 0 := rfl
  have hbase : 0 < start.baseBackoffS := hbase
  have hmax : start.baseBackoffS ≤ start.maxBackoffS := hmax
  constructor
  · rintro hbacks before inARow after rfl hfailures
    exact length_le_of_backsOff hbase hmax hstart hbacks hfailures
  · intro hshort
    refine ⟨?_, ?_⟩
    · rintro before now error after rfl
      obtain ⟨earlier, hsplit, hfailures⟩ := start.exists_failures before
      have hlength := hshort earlier (start.failures before ++ [.failure now error]) after
        (by rw [← List.append_assoc, ← hsplit]; simp)
        (List.forall_mem_append.mpr ⟨hfailures, by simp [Call.isFailure]⟩)
      rw [List.length_append, List.length_singleton] at hlength
      exact (backedOff_run_iff hbase hmax hstart before now error).mpr hlength
    · intro before now error middle now' error' after delay delay' _ hmiddle hheader hdelay hdelay'
      obtain ⟨-, rfl⟩ := failureDelay_eq_some_iff.mp hdelay
      obtain ⟨-, rfl⟩ := failureDelay_eq_some_iff.mp hdelay'
      exact clampedDelay_run_mono hbase hmax hstart before now hmiddle hheader

/-! ## Tripping -/

/-- Between a trip and the next success the circuit stays tripped, and no
snapshot calls it closed or in backoff. -/
def StaysTripped (start : VenueCircuitBreaker) (calls : List Call) : Prop :=
  ∀ before middle after, calls = before ++ middle ++ after →
    (run step start before).tripped = true → (∀ call ∈ middle, call.isFailure = true) →
      (run step start (before ++ middle)).tripped = true ∧
        ∀ now, ((run step start (before ++ middle)).snapshot now).state ≠ .backoff ∧
          ((run step start (before ++ middle)).snapshot now).state ≠ .closed

/-- A rate limit is among the failures, or there are enough of them. -/
def Tripping (failureThreshold : ℤ) (failures : List Call) : Prop :=
  (∃ call ∈ failures, call.isRateLimit = true) ∨
    failures ≠ [] ∧ failureThreshold ≤ (failures.length : ℤ)

theorem Tripping.append {failureThreshold : ℤ} {failures : List Call}
    (htripping : Tripping failureThreshold failures) (more : List Call) :
    Tripping failureThreshold (failures ++ more) := by
  obtain ⟨call, hcall, hlimit⟩ | ⟨hsome, hmany⟩ := htripping
  · exact .inl ⟨call, List.mem_append_left _ hcall, hlimit⟩
  · refine .inr ⟨List.append_ne_nil_of_left_ne_nil hsome _, ?_⟩
    rw [List.length_append]
    omega

/-- No error but a rate limit comes after a rate limit and too early to count. -/
def NoEarlyError (start : VenueCircuitBreaker) (calls : List Call) : Prop :=
  ∀ before now error after, calls = before ++ .failure now error :: after →
    isRateLimitError error = false → (∃ call ∈ start.failures before, call.isRateLimit = true) →
      start.failureThreshold ≤ ((start.failures before).length + 1 : ℤ)

theorem NoEarlyError.of_append {first last : List Call}
    (hnone : start.NoEarlyError (first ++ last)) : start.NoEarlyError first :=
  fun before now error after heq =>
    hnone before now error (after ++ last) (by rw [heq, List.append_assoc, List.cons_append])

theorem tripped_step (hstart : start.consecutiveFailures = 0) {before : List Call} {now : ℚ}
    {error : VenueError} :
    (run step start (before ++ [.failure now error])).tripped = true ↔
      isRateLimitError error = true ∨
        start.failureThreshold ≤ ((start.failures before).length + 1 : ℤ) := by
  rw [run_append, run_cons, run_nil, step, recordFailure_tripped, (sameConfig_run start before).1,
    consecutiveFailures_run hstart, Bool.or_eq_true, decide_eq_true_iff]

/-- Without an early error, the circuit is tripped iff the failures trip it. -/
theorem tripped_iff (hstart : start.consecutiveFailures = 0) (hclosed : start.tripped = false)
    {calls : List Call} (hnone : start.NoEarlyError calls) :
    (run step start calls).tripped = true ↔
      Tripping start.failureThreshold (start.failures calls) := by
  obtain rfl | ⟨before, call, rfl⟩ := calls.eq_nil_or_concat'
  · simp [Tripping, failures, hclosed]
  · cases call with
    | failure now error =>
        rw [tripped_step hstart, failures_append (by simp [Call.isFailure])]
        constructor
        · rintro (hlimit | hmany)
          · exact .inl ⟨_, List.mem_append_right _ (List.mem_singleton_self _), hlimit⟩
          · refine .inr ⟨by simp, ?_⟩
            rwa [List.length_append, List.length_singleton, Nat.cast_add, Nat.cast_one]
        · rintro (⟨call, hcall, hlimit⟩ | ⟨-, hmany⟩)
          · cases herror : isRateLimitError error with
            | true => exact .inl rfl
            | false =>
                obtain hold | hnew := List.mem_append.mp hcall
                · exact .inr (hnone before now error [] rfl herror ⟨call, hold, hlimit⟩)
                · obtain rfl := List.mem_singleton.mp hnew
                  exact absurd (herror.symm.trans hlimit) Bool.false_ne_true
          · rw [List.length_append, List.length_singleton, Nat.cast_add, Nat.cast_one] at hmany
            exact .inr hmany
    | success =>
        rw [failures_success, run_append, run_cons, run_nil]
        simp [step, recordSuccess, Tripping]

theorem snapshot_of_tripped {circuit : VenueCircuitBreaker} (htripped : circuit.tripped = true)
    (now : ℚ) :
    (circuit.snapshot now).state ≠ .backoff ∧ (circuit.snapshot now).state ≠ .closed := by
  rw [← not_or, snapshot_state_iff, htripped]
  exact Bool.false_ne_true.symm

/-- The circuit stays tripped from a trip to the next success iff no error but a
rate limit comes after a rate limit before there are enough failures. -/
theorem staysTripped_iff (failureThreshold : ℤ) (baseBackoffS maxBackoffS : ℚ)
    (calls : List Call) :
    (fresh failureThreshold baseBackoffS maxBackoffS).StaysTripped calls ↔
      (fresh failureThreshold baseBackoffS maxBackoffS).NoEarlyError calls := by
  set start := fresh failureThreshold baseBackoffS maxBackoffS
  have hstart : start.consecutiveFailures = 0 := rfl
  constructor
  · rintro hstays before now error after rfl herror ⟨call, hcall, hlimit⟩
    obtain ⟨earlier, hsplit, hfailures⟩ := start.exists_failures before
    obtain ⟨first, last, hcut⟩ := List.append_of_mem hcall
    rw [hcut, List.forall_mem_append, List.forall_mem_cons] at hfailures
    -- the rate limit trips the circuit
    have htripped : (run step start (earlier ++ first ++ [call])).tripped = true := by
      cases call with
      | failure now' error' => exact (tripped_step hstart).mpr (.inl hlimit)
      | success => cases hlimit
    have hbefore : before = earlier ++ first ++ [call] ++ last := by
      rw [hsplit, hcut]
      simp
    have hkept := (hstays (earlier ++ first ++ [call]) (last ++ [.failure now error]) after
      (by rw [hbefore]; simp) htripped
      (List.forall_mem_append.mpr ⟨hfailures.2.2, by simp [Call.isFailure]⟩)).1
    rw [← List.append_assoc, ← hbefore, tripped_step hstart, herror] at hkept
    exact hkept.resolve_left Bool.false_ne_true
  · rintro hnone before middle after rfl htripped hmiddle
    have hkept : (run step start (before ++ middle)).tripped = true := by
      rw [tripped_iff hstart rfl hnone.of_append, failures_append hmiddle]
      exact ((tripped_iff hstart rfl hnone.of_append.of_append).mp htripped).append middle
    exact ⟨hkept, snapshot_of_tripped hkept⟩

/-! ## Runs that break the promises -/

def sampleTimeout : VenueError :=
  { typeName := "TimeoutError", message := "", timeout := true }

def sampleRateLimit : VenueError :=
  { typeName := "RuntimeError", message := "HTTP 429 Too Many Requests", rateLimitText := true }

/-- Each of three timeouts, and of one after a success, backs off. -/
theorem timeouts_back_off :
    (fresh 2 2 10).BacksOff [.failure 10 sampleTimeout, .failure 12 sampleTimeout,
      .failure 16 sampleTimeout, .success, .failure 20 sampleTimeout] := by
  refine (backsOff_iff 2 (by decide +kernel) (by decide +kernel) _).mpr ?_
  intro before inARow after hsplit _
  have hlength := congrArg List.length hsplit
  simp only [List.length_append, List.length_cons, List.length_nil] at hlength
  omega

/-- The 1025th timeout in a row raises instead of backing off. -/
theorem long_outage_raises :
    ¬ (fresh 3 2 60).BacksOff (List.replicate 1025 (.failure 0 sampleTimeout)) := by
  intro hbacks
  have hfailures : ∀ call ∈ List.replicate 1024 (Call.failure 0 sampleTimeout),
      call.isFailure = true := by
    intro call hcall
    rw [List.eq_of_mem_replicate hcall]
    rfl
  obtain ⟨delay, hbacked⟩ := hbacks.1 (List.replicate 1024 (.failure 0 sampleTimeout)) 0
    sampleTimeout [] List.replicate_succ'
  have hcount := (failureDelay_eq_some_iff.mp hbacked.returned).1
  have hmet : (fresh 3 2 60).failures (List.replicate 1024 (.failure 0 sampleTimeout)) =
      List.replicate 1024 (.failure 0 sampleTimeout) :=
    streak_of_along _ _ (Along.iff_forall_mem.mpr hfailures)
  rw [consecutiveFailures_run rfl, hmet, List.length_replicate] at hcount
  exact absurd hcount (lt_irrefl _)

/-- A timeout un-trips the circuit that a rate limit has opened. -/
theorem timeout_untrips :
    ¬ (fresh 3 2 60).StaysTripped
      [.failure 100 sampleRateLimit, .failure 102 sampleTimeout] := by
  intro hstays
  have hkept := (hstays [.failure 100 sampleRateLimit] [.failure 102 sampleTimeout] [] rfl
    (by decide +kernel) (by decide +kernel)).1
  exact absurd hkept (by decide +kernel)

end Opms.VenueCircuitBreaker
