import Opms.PerpMM.Margin

/-! # Where margin figures come from

Every answer is zero or a finite figure that was read within the caller's time
to live. The cache keeps the last response read, and also the zero that stands
for a response without a usable figure, so that zero is served again.
-/

namespace Opms.PerpMM

open Foundation

universe u v

variable {Raw : Type u} {Controller : Type v}
variable (rule : FailClosed Raw) (cfg : Controller → MarginConfig)

/-- The controllers that share one connector. -/
structure Account (Controller : Type v) where
  connector : Connector := {}
  circuits : Controller → VenueCircuitBreaker

/-- A response that was read: its finite figure of token 0, if it has one, and
the time of the call. -/
structure MarginReading where
  figure : Option ℚ
  readAt : ℚ
  deriving DecidableEq

namespace Account

inductive Event (Raw : Type u) (Controller : Type v)
  | margin (controller : Controller) (call : MarginCall Raw)
  /-- Another venue request of the controller, and the exception it ends with. -/
  | request (controller : Controller) (now : ℚ) (failure : Option VenueError)
  /-- A control cycle of the controller ends with an exception. -/
  | cycleFailed (controller : Controller) (now : ℚ) (error : VenueError)

/-- What a call of the controller answers. -/
def answer (account : Account Controller) (controller : Controller) (call : MarginCall Raw) :
    MarginAnswer :=
  currentMarginAvailable rule (cfg controller) account.connector (account.circuits controller) call

/-- The response that a call reads. -/
def readings (account : Account Controller) : Event Raw Controller → List MarginReading
  | .margin controller call =>
      ((readFigure rule (cfg controller) account.connector (account.circuits controller) call).map
        fun figure => ⟨figure, call.now⟩).toList
  | .request _ _ _ => []
  | .cycleFailed _ _ _ => []

/-- The call is answered from the cache. -/
def Cached (account : Account Controller) (controller : Controller) (call : MarginCall Raw) :
    Prop :=
  (account.connector.cached (cfg controller) call.now).isSome

/-- The value is zero, or the finite figure that the call reads, or one that
was read less than the caller's time to live before it. -/
def Sourced (account : Account Controller) (history : List MarginReading) (controller : Controller)
    (call : MarginCall Raw) : Prop :=
  let value := (account.answer rule cfg controller call).value
  value = 0 ∨ ⟨some value, call.now⟩ ∈ account.readings rule cfg (.margin controller call) ∨
    ∃ reading ∈ history, reading.figure = some value ∧
      call.now - reading.readAt < (cfg controller).marginCacheTtl

/-- Unless the cache answers, a call that reads no finite figure gives zero. -/
def FailsClosed (account : Account Controller) (controller : Controller)
    (call : MarginCall Raw) : Prop :=
  ¬ account.Cached cfg controller call →
    (∀ reading ∈ account.readings rule cfg (.margin controller call), reading.figure = none) →
      (account.answer rule cfg controller call).value = 0

/-- An answer from the cache repeats the last response read, a finite figure. -/
def RepeatsFinite (account : Account Controller) (history : List MarginReading)
    (controller : Controller) (call : MarginCall Raw) : Prop :=
  account.Cached cfg controller call →
    ∃ reading ∈ history.getLast?,
      reading.figure = some (account.answer rule cfg controller call).value

/-- No call comes within its time to live of a response without a finite figure
while that is the last one read. -/
def OutlivesUnusable (history : List MarginReading) (controller : Controller)
    (call : MarginCall Raw) : Prop :=
  ∀ reading ∈ history.getLast?, reading.figure = none →
    (cfg controller).marginCacheTtl ≤ call.now - reading.readAt

variable {rule cfg} {account : Account Controller}

/-! ## One call -/

/-- The cache holds the last response read, with zero for a missing figure. -/
def Remembers (account : Account Controller) (history : List MarginReading) : Prop :=
  account.connector.marginCache =
    history.getLast?.map fun reading => (reading.figure.getD 0, reading.readAt)

variable (rule cfg) in
/-- How a call of the controller ends, with what it reads. -/
theorem outcome (account : Account Controller) (controller : Controller) (call : MarginCall Raw) :
    ∃ read : Option (Option ℚ),
      account.readings rule cfg (.margin controller call) =
        (read.map fun figure => ⟨figure, call.now⟩).toList ∧
      MarginOutcome (cfg controller) account.connector call.now
        (account.answer rule cfg controller call) read :=
  ⟨_, rfl, marginOutcome rule _ _ _ call⟩

/-- A cached answer is the last response read, still fresh for the caller. -/
theorem Remembers.cached_iff {history : List MarginReading} (hremembers : account.Remembers history)
    {controller : Controller} {call : MarginCall Raw} {value : ℚ} :
    account.connector.cached (cfg controller) call.now = some value ↔
      ∃ reading ∈ history.getLast?, reading.figure.getD 0 = value ∧
        call.now - reading.readAt < (cfg controller).marginCacheTtl := by
  rw [Connector.cached_eq_some_iff, hremembers]
  simp only [Option.map_eq_some_iff, Prod.mk.injEq, Option.mem_def]
  constructor
  · rintro ⟨_, ⟨reading, hlast, hvalue, rfl⟩, hfresh⟩
    exact ⟨reading, hlast, hvalue, hfresh⟩
  · rintro ⟨reading, hlast, hvalue, hfresh⟩
    exact ⟨reading.readAt, ⟨reading, hlast, hvalue, rfl⟩, hfresh⟩

theorem answer_of_cached {controller : Controller} {call : MarginCall Raw} {value : ℚ}
    (hcached : account.connector.cached (cfg controller) call.now = some value) :
    (account.answer rule cfg controller call).value = value := by
  rw [answer, currentMarginAvailable, hcached]

theorem Remembers.sourced {history : List MarginReading} (hremembers : account.Remembers history)
    (controller : Controller) (call : MarginCall Raw) :
    account.Sourced rule cfg history controller call := by
  obtain ⟨read, hread, houtcome⟩ := account.outcome rule cfg controller call
  cases houtcome with
  | cached stamp hcache hfresh hkeep =>
      have hcached := Connector.cached_eq_some_iff.mpr ⟨stamp, hcache, hfresh⟩
      obtain ⟨reading, hlast, hvalue, hage⟩ := hremembers.cached_iff.mp hcached
      cases hfigure : reading.figure with
      | none =>
          rw [hfigure] at hvalue
          exact .inl hvalue.symm
      | some figure =>
          rw [hfigure] at hvalue
          refine .inr (.inr ⟨reading, List.mem_of_getLast? hlast, ?_, hage⟩)
          exact hfigure.trans (congrArg some hvalue)
  | failed hmiss hzero hkeep => exact .inl hzero
  | read figure hmiss hvalue hcache =>
      cases figure with
      | none => exact .inl hvalue
      | some figure =>
          refine .inr (.inl ?_)
          rw [hread, hvalue]
          exact List.mem_singleton_self _

theorem failsClosed (account : Account Controller) (controller : Controller)
    (call : MarginCall Raw) : account.FailsClosed rule cfg controller call := by
  intro hmissed hunusable
  obtain ⟨read, hread, houtcome⟩ := account.outcome rule cfg controller call
  cases houtcome with
  | cached stamp hcache hfresh hkeep =>
      have hcached := Connector.cached_eq_some_iff.mpr ⟨stamp, hcache, hfresh⟩
      exact absurd (Option.isSome_iff_exists.mpr ⟨_, hcached⟩) hmissed
  | failed hmiss hzero hkeep => exact hzero
  | read figure hmiss hvalue hcache =>
      rw [hread] at hunusable
      obtain rfl : figure = none := hunusable ⟨figure, call.now⟩ (List.mem_singleton_self _)
      exact hvalue

/-- The cache repeats a finite figure unless the zero of an unusable response
is still fresh. -/
theorem Remembers.repeatsFinite_iff {history : List MarginReading}
    (hremembers : account.Remembers history) (controller : Controller) (call : MarginCall Raw) :
    account.RepeatsFinite rule cfg history controller call ↔
      OutlivesUnusable cfg history controller call := by
  constructor
  · intro hrepeats reading hlast hunusable
    by_contra hfresh
    have hcached := hremembers.cached_iff.mpr ⟨reading, hlast, rfl, not_le.mp hfresh⟩
    obtain ⟨other, hother, hfinite⟩ := hrepeats (Option.isSome_iff_exists.mpr ⟨_, hcached⟩)
    obtain rfl := Option.mem_unique hlast hother
    rw [hunusable] at hfinite
    cases hfinite
  · intro houtlives hcached
    obtain ⟨value, hcached⟩ := Option.isSome_iff_exists.mp hcached
    obtain ⟨reading, hlast, hvalue, hfresh⟩ := hremembers.cached_iff.mp hcached
    refine ⟨reading, hlast, ?_⟩
    rw [answer_of_cached hcached]
    cases hfigure : reading.figure with
    | none => exact absurd (houtlives reading hlast hfigure) (not_le.mpr hfresh)
    | some figure => rw [← hvalue, hfigure, Option.getD_some]

/-! ## Whole runs -/

variable [DecidableEq Controller]

def setCircuit (account : Account Controller) (controller : Controller)
    (circuit : VenueCircuitBreaker) : Account Controller :=
  { account with circuits := Function.update account.circuits controller circuit }

variable (rule cfg) in
def step (account : Account Controller) : Event Raw Controller → Account Controller
  | .margin controller call =>
      let answer := account.answer rule cfg controller call
      { account.setCircuit controller answer.circuit with connector := answer.connector }
  | .request controller now failure =>
      let reply := failure.elim (.ok ()) .error
      account.setCircuit controller (venueRequest (account.circuits controller) now reply).2
  | .cycleFailed controller now error =>
      let circuit := account.circuits controller
      if circuit.allowRequest now then
        account.setCircuit controller (circuit.recordFailure now error)
      else account

theorem remembers_step {history : List MarginReading} (hremembers : account.Remembers history)
    (event : Event Raw Controller) :
    (account.step rule cfg event).Remembers (history ++ account.readings rule cfg event) := by
  cases event with
  | margin controller call =>
      obtain ⟨read, hread, houtcome⟩ := account.outcome rule cfg controller call
      rw [hread]
      cases houtcome with
      | cached stamp hcache hfresh hkeep =>
          rw [Option.map_none, Option.toList_none, List.append_nil]
          exact hkeep.trans hremembers
      | failed hmiss hzero hkeep =>
          rw [Option.map_none, Option.toList_none, List.append_nil]
          exact hkeep.trans hremembers
      | read figure hmiss hvalue hcache =>
          rw [Option.map_some, Option.toList_some, Remembers, List.getLast?_concat,
            Option.map_some, ← hvalue]
          exact hcache
  | request controller now failure =>
      rw [readings, List.append_nil]
      exact hremembers
  | cycleFailed controller now error =>
      rw [readings, List.append_nil]
      simp only [step]
      split
      next => exact hremembers
      next => exact hremembers

/-- The cache after a run holds the last response the run read. -/
theorem remembers_run {history : List MarginReading} (hremembers : account.Remembers history)
    (events : List (Event Raw Controller)) :
    (run (step rule cfg) account events).Remembers
      (history ++ emitted (step rule cfg) (readings rule cfg) account events) := by
  induction events generalizing account history with
  | nil => simpa [emitted] using hremembers
  | cons event rest ih =>
      rw [run_cons, emitted_cons, ← List.append_assoc]
      exact ih (remembers_step hremembers event)

/-- What the calls of a run have read. -/
def history (rule : FailClosed Raw) (cfg : Controller → MarginConfig)
    (circuits : Controller → VenueCircuitBreaker) (events : List (Event Raw Controller)) :
    List MarginReading :=
  emitted (step rule cfg) (readings rule cfg) { circuits := circuits } events

/-- A property of every call of a run, with the account it meets and what was
read before. -/
def EveryCall (rule : FailClosed Raw) (cfg : Controller → MarginConfig)
    (circuits : Controller → VenueCircuitBreaker) (events : List (Event Raw Controller))
    (holds : Account Controller → List MarginReading → Controller → MarginCall Raw → Prop) : Prop :=
  ∀ before controller call after, events = before ++ .margin controller call :: after →
    holds (run (step rule cfg) { circuits := circuits } before)
      (history rule cfg circuits before) controller call

theorem remembers_history (circuits : Controller → VenueCircuitBreaker)
    (events : List (Event Raw Controller)) :
    (run (step rule cfg) { circuits := circuits } events).Remembers
      (history rule cfg circuits events) := by
  have hstart : Remembers { circuits := circuits } [] := rfl
  exact remembers_run hstart events

/-- In every run the answers are sourced and fail closed, and those from the
cache repeat a finite figure exactly when no call comes within its time to live
of an unusable response that is the last one read. -/
theorem margin_readings_iff (rule : FailClosed Raw) (cfg : Controller → MarginConfig)
    (circuits : Controller → VenueCircuitBreaker) (events : List (Event Raw Controller)) :
    EveryCall rule cfg circuits events (fun account history controller call =>
        account.Sourced rule cfg history controller call ∧
          account.FailsClosed rule cfg controller call) ∧
      (EveryCall rule cfg circuits events (fun account history controller call =>
          account.RepeatsFinite rule cfg history controller call) ↔
        EveryCall rule cfg circuits events (fun _ history controller call =>
          OutlivesUnusable cfg history controller call)) := by
  constructor
  · intro before controller call after _
    exact ⟨(remembers_history circuits before).sourced controller call,
      failsClosed _ controller call⟩
  · refine forall₄_congr fun before controller call after => imp_congr_right fun _ => ?_
    exact (remembers_history circuits before).repeatsFinite_iff controller call

end Account

/-! ## A response without a figure -/

/-- Figures that are numbers, or not finite. -/
def sampleRule : FailClosed (Option ℚ) where
  finite := id
  marginAvailable raw := (raw.bind id).getD 0
  marginAvailable_eq _ := rfl

/-- The venue's first response lacks the figure. Five seconds later a sibling
controller is served its zero, though the venue would answer. -/
theorem unusable_reading_served_again :
    let account : Account String := { circuits := fun _ => {} }
    let first : MarginCall (Option ℚ) := ⟨0, 0, .ok .absent⟩
    let second : MarginCall (Option ℚ) := ⟨5, 5, .ok (.tokens [some (0, some 271)])⟩
    let later := account.step sampleRule (fun _ => {}) (.margin "ETH" first)
    account.readings sampleRule (fun _ => {}) (.margin "ETH" first) = [⟨none, 0⟩] ∧
      later.Cached (fun _ => {}) "SOL" second ∧
      (later.answer sampleRule (fun _ => {}) "SOL" second).value = 0 ∧
      ¬ later.RepeatsFinite sampleRule (fun _ => {}) [⟨none, 0⟩] "SOL" second := by
  intro account first second later
  have hcached : later.Cached (fun _ => {}) "SOL" second := by
    rw [Account.Cached]
    decide +kernel
  refine ⟨by decide +kernel, hcached, by decide +kernel, fun hrepeats => ?_⟩
  obtain ⟨reading, hlast, hfigure⟩ := hrepeats hcached
  obtain rfl := Option.some.inj hlast
  cases hfigure

end Opms.PerpMM
