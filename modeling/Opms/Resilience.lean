import Opms.Hummingbot
import Mathlib.Data.Finset.Basic

/-! # Resilience

The venue circuit backs off after failed requests. The watchdog tracks whether
every intentionally quoted side has a live venue order; a miss that lasts opens
a circuit for a cooldown.
-/

namespace Opms

/-! ## The venue circuit -/

/-- What the circuit looks at in an exception. -/
structure VenueError where
  typeName : String
  message : String
  /-- The first of its status codes that is an integer. -/
  statusCode : Option ℤ := none
  /-- Whether its text speaks of a rate limit. -/
  rateLimitText : Bool := false
  timeout : Bool := false
  /-- The `Retry-After` header, where it is a number. -/
  retryAfterHeader : Option ℚ := none

def isRateLimitError (error : VenueError) : Bool :=
  error.statusCode = some 429 || error.rateLimitText

def retryAfter (error : VenueError) : Option ℚ := error.retryAfterHeader.map (max · 0)

inductive FailureKind
  | rateLimit
  | timeout
  | transport
  deriving DecidableEq, Repr

/-- A float times a power of two. The power is an integer, and beyond the range
of floats the product raises. -/
def floatTimesPow (value : ℚ) (exponent : ℕ) : Option ℚ :=
  if exponent < 1024 then some (value * 2 ^ exponent) else none

inductive CircuitState
  | opened
  | halfOpen
  | backoff
  | closed
  deriving DecidableEq, Repr

structure CircuitSnapshot where
  state : CircuitState
  consecutiveFailures : ℕ
  retryInS : ℚ
  rateLimited : Bool
  lastFailureKind : Option FailureKind
  lastError : Option String

/-- Exponential request backoff; a rate limit opens the circuit at once. -/
structure VenueCircuitBreaker where
  failureThreshold : ℤ := 3
  baseBackoffS : ℚ := 2
  maxBackoffS : ℚ := 60
  consecutiveFailures : ℕ := 0
  retryAt : ℚ := 0
  rateLimited : Bool := false
  tripped : Bool := false
  lastError : Option String := none
  lastFailureKind : Option FailureKind := none

namespace VenueCircuitBreaker

def allowRequest (circuit : VenueCircuitBreaker) (now : ℚ) : Bool := now ≥ circuit.retryAt

/-- How long to back off after one more failure, unless computing it raises. -/
def failureDelay (circuit : VenueCircuitBreaker) (error : VenueError) : Option ℚ :=
  (floatTimesPow circuit.baseBackoffS circuit.consecutiveFailures).map fun product =>
    let exponential := min product circuit.maxBackoffS
    let headerDelay := if isRateLimitError error then retryAfter error else none
    min (max exponential (headerDelay.getD 0)) circuit.maxBackoffS

/-- The circuit after the call. When the delay raises, all but `retry_at` has
been written. -/
def recordFailure (circuit : VenueCircuitBreaker) (now : ℚ) (error : VenueError) :
    VenueCircuitBreaker :=
  let failures := circuit.consecutiveFailures + 1
  { circuit with
    consecutiveFailures := failures
    rateLimited := isRateLimitError error
    tripped := isRateLimitError error || circuit.failureThreshold ≤ failures
    lastError := some (error.typeName ++ ": " ++ error.message)
    lastFailureKind := some
      (if isRateLimitError error then .rateLimit
        else if error.timeout then .timeout else .transport)
    retryAt := (circuit.failureDelay error).elim circuit.retryAt (now + ·) }

def recordSuccess (circuit : VenueCircuitBreaker) : VenueCircuitBreaker :=
  { circuit with
    consecutiveFailures := 0
    retryAt := 0
    rateLimited := false
    tripped := false
    lastError := none
    lastFailureKind := none }

def retryInS (circuit : VenueCircuitBreaker) (now : ℚ) : ℚ := max (circuit.retryAt - now) 0

def snapshot (circuit : VenueCircuitBreaker) (now : ℚ) : CircuitSnapshot :=
  let blocked := !circuit.allowRequest now
  { state :=
      if circuit.tripped && blocked then .opened
      else if circuit.tripped then .halfOpen
      else if blocked then .backoff
      else .closed
    consecutiveFailures := circuit.consecutiveFailures
    retryInS := circuit.retryInS now
    rateLimited := circuit.rateLimited
    lastFailureKind := circuit.lastFailureKind
    lastError := circuit.lastError }

@[simp] theorem recordFailure_tripped (circuit : VenueCircuitBreaker) (now : ℚ)
    (error : VenueError) : (circuit.recordFailure now error).tripped =
      (isRateLimitError error || circuit.failureThreshold ≤ circuit.consecutiveFailures + 1) := by
  simp [recordFailure]

/-- A circuit that has not tripped is the one that snapshots call closed or in
backoff. -/
theorem snapshot_state_iff (circuit : VenueCircuitBreaker) (now : ℚ) :
    (circuit.snapshot now).state = .backoff ∨ (circuit.snapshot now).state = .closed ↔
      circuit.tripped = false := by
  unfold snapshot
  cases circuit.tripped with
  | false => cases circuit.allowRequest now with
    | false => simp
    | true => simp
  | true => cases circuit.allowRequest now with
    | false => simp
    | true => simp

end VenueCircuitBreaker

/-! ## Quote liveness -/

structure QuoteLivenessWatchdog where
  timeoutS : ℚ := 15
  recoveryCooldownS : ℚ := 30
  missingSince : Option ℚ := none
  lastLiveAt : Option ℚ := none
  openUntil : ℚ := 0
  trips : ℕ := 0
  expectedSides : Finset TradeType := ∅
  liveSides : Finset TradeType := ∅
  deriving DecidableEq

namespace QuoteLivenessWatchdog

def allowQuotes (watchdog : QuoteLivenessWatchdog) (now : ℚ) : Bool :=
  now ≥ watchdog.openUntil

/-- A cooldown that just elapsed gives the recovery a fresh grace window. -/
def recovered (watchdog : QuoteLivenessWatchdog) : QuoteLivenessWatchdog :=
  if watchdog.openUntil ≠ 0 then { watchdog with openUntil := 0, missingSince := none }
  else watchdog

/-- Time a missing side; opens the circuit when it has been missing too long. -/
def noteMissing (watchdog : QuoteLivenessWatchdog) (now : ℚ) : Bool × QuoteLivenessWatchdog :=
  match watchdog.missingSince with
  | none => (false, { watchdog with missingSince := some now })
  | some since =>
      if now - since < watchdog.timeoutS then
        (false, watchdog)
      else
        (true, { watchdog with
          trips := watchdog.trips + 1
          openUntil := now + watchdog.recoveryCooldownS })

/-- Whether the circuit is open after the observation, and the watchdog then. -/
def observe (watchdog : QuoteLivenessWatchdog) (now : ℚ) (expected live : Finset TradeType) :
    Bool × QuoteLivenessWatchdog :=
  let seen := { watchdog with expectedSides := expected, liveSides := live }
  if expected = ∅ then
    (false, { seen with missingSince := none })
  else if !seen.allowQuotes now then
    (true, seen)
  else if expected ⊆ live then
    (false, { seen.recovered with lastLiveAt := some now, missingSince := none })
  else
    seen.recovered.noteMissing now

/-- Pause missing-quote timing while quoting is not intended. -/
def suspend (watchdog : QuoteLivenessWatchdog) : QuoteLivenessWatchdog :=
  { watchdog with missingSince := none, expectedSides := ∅, liveSides := ∅ }

/-- Open the circuit immediately for an explicit liveness failure. -/
def trip (watchdog : QuoteLivenessWatchdog) (now : ℚ) (expected live : Finset TradeType) :
    QuoteLivenessWatchdog :=
  { watchdog with
    expectedSides := expected
    liveSides := live
    missingSince := none
    trips := watchdog.trips + 1
    openUntil := max watchdog.openUntil (now + watchdog.recoveryCooldownS) }

@[simp] theorem suspend_openUntil (watchdog : QuoteLivenessWatchdog) :
    watchdog.suspend.openUntil = watchdog.openUntil := rfl

theorem allowQuotes_iff (watchdog : QuoteLivenessWatchdog) (now : ℚ) :
    watchdog.allowQuotes now = true ↔ watchdog.openUntil ≤ now :=
  decide_eq_true_iff

@[simp] theorem recovered_openUntil (watchdog : QuoteLivenessWatchdog) :
    watchdog.recovered.openUntil = 0 := by
  unfold recovered
  split
  next => rfl
  next hzero => exact not_not.mp hzero

theorem noteMissing_openUntil {watchdog : QuoteLivenessWatchdog} {now : ℚ}
    (hquiet : (watchdog.noteMissing now).1 = false) :
    (watchdog.noteMissing now).2.openUntil = watchdog.openUntil := by
  revert hquiet
  unfold noteMissing
  split
  next => exact fun _ => rfl
  next =>
    split
    next => exact fun _ => rfl
    next => exact fun htripped => by cases htripped

/-- An observation that does not trip keeps the circuit's time or clears it. -/
theorem observe_openUntil {watchdog : QuoteLivenessWatchdog} {now : ℚ}
    {expected live : Finset TradeType} (hquiet : (watchdog.observe now expected live).1 = false) :
    (watchdog.observe now expected live).2.openUntil = watchdog.openUntil ∨
      (watchdog.observe now expected live).2.openUntil = 0 := by
  revert hquiet
  simp only [observe]
  split
  next => exact fun _ => .inl rfl
  next =>
    split
    next => exact fun htripped => by cases htripped
    next =>
      split
      next => exact fun _ => .inr (recovered_openUntil _)
      next =>
        exact fun hquiet => .inr ((noteMissing_openUntil hquiet).trans (recovered_openUntil _))

theorem noteMissing_recoveryCooldownS (watchdog : QuoteLivenessWatchdog) (now : ℚ) :
    (watchdog.noteMissing now).2.recoveryCooldownS = watchdog.recoveryCooldownS := by
  unfold noteMissing
  split
  next => rfl
  next =>
    split
    next => rfl
    next => rfl

@[simp] theorem recovered_recoveryCooldownS (watchdog : QuoteLivenessWatchdog) :
    watchdog.recovered.recoveryCooldownS = watchdog.recoveryCooldownS := by
  unfold recovered
  split
  next => rfl
  next => rfl

theorem observe_recoveryCooldownS (watchdog : QuoteLivenessWatchdog) (now : ℚ)
    (expected live : Finset TradeType) :
    (watchdog.observe now expected live).2.recoveryCooldownS = watchdog.recoveryCooldownS := by
  simp only [observe]
  split
  next => rfl
  next =>
    split
    next => rfl
    next =>
      split
      next => exact recovered_recoveryCooldownS _
      next => rw [noteMissing_recoveryCooldownS, recovered_recoveryCooldownS]

/-- An observation that opens a closed circuit keeps it open for the cooldown. -/
theorem observe_tripped {watchdog : QuoteLivenessWatchdog} {now : ℚ}
    {expected live : Finset TradeType} (hallowed : watchdog.allowQuotes now = true)
    (htripped : (watchdog.observe now expected live).1 = true) :
    (watchdog.observe now expected live).2.openUntil = now + watchdog.recoveryCooldownS := by
  revert htripped
  simp only [observe]
  split
  next => exact fun h => by cases h
  next =>
    split
    next hblocked =>
      have hsame : watchdog.allowQuotes now = false := by simpa [allowQuotes] using hblocked
      rw [hsame] at hallowed
      cases hallowed
    next =>
      split
      next => exact fun h => by cases h
      next =>
        unfold noteMissing
        split
        next => exact fun h => by cases h
        next =>
          split
          next => exact fun h => by cases h
          next => exact fun _ => congrArg (now + ·) (recovered_recoveryCooldownS _)

end QuoteLivenessWatchdog

end Opms
