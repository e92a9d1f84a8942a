import Opms.Foundation.Registry
import Opms.Foundation.Run
import Opms.Resilience

/-! # Reading the margin

Controllers on one account share a connector, and with it the last margin
figure and the time of the next attempt. Each controller has a venue circuit of
its own. The rule that turns a raw figure into a number is third-party code.
-/

namespace Opms.PerpMM

open Foundation

universe u v

/-- The configuration's margin fields. -/
structure MarginConfig where
  marginCacheTtl : ℚ := 10
  venueBackoffInitial : ℚ := 2
  deriving DecidableEq

/-- The fail-closed rule: a finite figure is returned as it is, and a missing,
malformed or non-finite one as zero. -/
structure FailClosed (Raw : Type u) where
  /-- The number that a raw figure denotes, where it is finite. -/
  finite : Raw → Option ℚ
  marginAvailable : Option Raw → ℚ
  marginAvailable_eq : ∀ raw, marginAvailable raw = (raw.bind finite).getD 0

/-- What the venue answers. -/
inductive SpotState (Raw : Type u)
  /-- Not a mapping, or its token field is not a list. -/
  | malformed
  /-- A mapping without the token field. -/
  | absent
  /-- The listed tokens; an entry that is not a pair with an integer is `none`. -/
  | tokens (entries : List (Option (ℤ × Raw)))

/-- The figures by token; an entry that does not parse fails the read. -/
def SpotState.avail {Raw : Type u} : SpotState Raw → Option (Registry ℤ Raw)
  | .malformed => none
  | .absent => some Registry.empty
  | .tokens entries =>
      entries.foldlM (fun avail entry => entry.map fun (token, value) => avail.set token value)
        Registry.empty

/-- The attributes that the controllers keep on their connector. -/
structure Connector where
  marginCache : Option (ℚ × ℚ) := none
  marginRetryAt : ℚ := 0
  deriving DecidableEq

/-- One call: the clock when it holds the lock, the clock when it asks the
venue, and what the venue answers if it is asked. -/
structure MarginCall (Raw : Type u) where
  now : ℚ
  requestedAt : ℚ
  reply : Except VenueError (SpotState Raw)

structure MarginAnswer where
  value : ℚ
  connector : Connector
  circuit : VenueCircuitBreaker

/-- One request under the circuit: the response, or `none` if it raises. -/
def venueRequest {Response : Type u} (circuit : VenueCircuitBreaker) (now : ℚ)
    (reply : Except VenueError Response) : Option Response × VenueCircuitBreaker :=
  if !circuit.allowRequest now then
    (none, circuit)
  else
    match reply with
    | .error error => (none, circuit.recordFailure now error)
    | .ok response => (some response, circuit.recordSuccess)

variable {Raw : Type u} (rule : FailClosed Raw)

/-- The cached figure, as long as it is fresh. -/
def Connector.cached (connector : Connector) (cfg : MarginConfig) (now : ℚ) : Option ℚ :=
  (connector.marginCache.filter fun cached => now - cached.2 < cfg.marginCacheTtl).map Prod.fst

/-- Neither the shared backoff nor the circuit stands against a request. -/
def MayRequest (connector : Connector) (circuit : VenueCircuitBreaker) (now : ℚ) : Prop :=
  ¬ now < connector.marginRetryAt ∧ circuit.allowRequest now = true

instance (connector : Connector) (circuit : VenueCircuitBreaker) (now : ℚ) :
    Decidable (MayRequest connector circuit now) :=
  inferInstanceAs (Decidable (_ ∧ _))

def currentMarginAvailable (cfg : MarginConfig) (connector : Connector)
    (circuit : VenueCircuitBreaker) (call : MarginCall Raw) : MarginAnswer :=
  match connector.cached cfg call.now with
  | some value => ⟨value, connector, circuit⟩
  | none =>
      if call.now < connector.marginRetryAt then
        ⟨rule.marginAvailable none, connector, circuit⟩
      else if !circuit.allowRequest call.now then
        ⟨rule.marginAvailable none, connector, circuit⟩
      else
        let (spot, circuit) := venueRequest circuit call.requestedAt call.reply
        match spot.bind SpotState.avail with
        | none =>
            -- the failure is not cached, but it delays the next attempt
            ⟨rule.marginAvailable none,
              { connector with marginRetryAt :=
                  call.now + max (circuit.retryInS call.now) cfg.venueBackoffInitial },
              circuit⟩
        | some avail =>
            let value := rule.marginAvailable (avail.lookup 0)
            ⟨value, { marginCache := some (value, call.now), marginRetryAt := 0 }, circuit⟩

/-- The figure of token 0 in the response the call reads, if it reads one. A
response without a finite one gives `some none`. -/
def readFigure (cfg : MarginConfig) (connector : Connector) (circuit : VenueCircuitBreaker)
    (call : MarginCall Raw) : Option (Option ℚ) :=
  if connector.cached cfg call.now = none ∧ MayRequest connector circuit call.now then
    ((venueRequest circuit call.requestedAt call.reply).1.bind SpotState.avail).map
      fun avail => (avail.lookup 0).bind rule.finite
  else
    none

/-! ## How a call ends -/

/-- A call answers from the cache, or without a figure, or with a response. -/
inductive MarginOutcome (cfg : MarginConfig) (connector : Connector) (now : ℚ)
    (answer : MarginAnswer) : Option (Option ℚ) → Prop
  | cached (stamp : ℚ) (hcache : connector.marginCache = some (answer.value, stamp))
      (hfresh : now - stamp < cfg.marginCacheTtl)
      (hkeep : answer.connector.marginCache = connector.marginCache) :
      MarginOutcome cfg connector now answer none
  | failed (hmiss : connector.cached cfg now = none) (hzero : answer.value = 0)
      (hkeep : answer.connector.marginCache = connector.marginCache) :
      MarginOutcome cfg connector now answer none
  | read (figure : Option ℚ) (hmiss : connector.cached cfg now = none)
      (hvalue : answer.value = figure.getD 0)
      (hcache : answer.connector.marginCache = some (answer.value, now)) :
      MarginOutcome cfg connector now answer (some figure)

variable {connector : Connector} {now : ℚ}

theorem Connector.cached_eq_some_iff {cfg : MarginConfig} {value : ℚ} :
    connector.cached cfg now = some value ↔
      ∃ stamp, connector.marginCache = some (value, stamp) ∧ now - stamp < cfg.marginCacheTtl := by
  simp only [cached, Option.map_eq_some_iff, Option.filter_eq_some_iff, decide_eq_true_eq]
  constructor
  · rintro ⟨⟨_, stamp⟩, ⟨hcache, hfresh⟩, rfl⟩
    exact ⟨stamp, hcache, hfresh⟩
  · rintro ⟨stamp, hcache, hfresh⟩
    exact ⟨(value, stamp), ⟨hcache, hfresh⟩, rfl⟩

theorem marginAvailable_none : rule.marginAvailable none = 0 := rule.marginAvailable_eq none

theorem marginOutcome (cfg : MarginConfig) (connector : Connector) (circuit : VenueCircuitBreaker)
    (call : MarginCall Raw) :
    MarginOutcome cfg connector call.now (currentMarginAvailable rule cfg connector circuit call)
      (readFigure rule cfg connector circuit call) := by
  unfold currentMarginAvailable readFigure
  split
  next value hcached =>
    rw [if_neg fun hrequest => by rw [hcached] at hrequest; cases hrequest.1]
    obtain ⟨stamp, hcache, hfresh⟩ := Connector.cached_eq_some_iff.mp hcached
    exact .cached stamp hcache hfresh rfl
  next hmiss =>
    split
    next hbackoff =>
      rw [if_neg fun hrequest => hrequest.2.1 hbackoff]
      exact .failed hmiss (marginAvailable_none rule) rfl
    next hready =>
      split
      next hopen =>
        rw [if_neg fun hrequest => by simp [hrequest.2.2] at hopen]
        exact .failed hmiss (marginAvailable_none rule) rfl
      next hclosed =>
        rw [if_pos ⟨hmiss, hready, by simpa using hclosed⟩]
        dsimp only
        cases (venueRequest circuit call.requestedAt call.reply).1.bind SpotState.avail with
        | none => exact .failed hmiss (marginAvailable_none rule) rfl
        | some avail => exact .read _ hmiss (rule.marginAvailable_eq _) rfl

end Opms.PerpMM
