import Opms.Foundation.Episodes
import Opms.PerpMM.Requote

/-! # One notice for an episode

An event logs a change of what it reads of the market and of the equity, and
nothing else, so over a whole run the notices alternate, however the updates
end. The drawdown baseline is announced once as blind and once as armed at most.
-/

namespace Opms.PerpMM

open Foundation PortfolioStop

universe u

inductive NoticeKind
  | market
  | equity
  | drawdown
  deriving DecidableEq

def Notice.kind : Notice → NoticeKind
  | .marketDataUnready | .marketDataRecovered => .market
  | .equityUnresolved | .equityResolved => .equity
  | .drawdownBlind | .drawdownArmed => .drawdown

/-- The notices of one kind. -/
def ofKind (kind : NoticeKind) (notices : List Notice) : List Notice :=
  notices.filter (·.kind = kind)

namespace ControlState

/-- Equity is in an unresolved episode. -/
def unresolved (s : ControlState) : Bool := s.equityResolved = some false

end ControlState

/-! ## What is read -/

section Reading

variable {members : Finset Leg} {Raw : Type u}

/-- The equity an update gets to note. -/
def Update.equityRead (cfg : ControlConfig members) (update : Update Raw) :
    Option (Option ℚ) :=
  if update.margin.isSome ∧ update.snapshot.completes then
    update.market.map fun market => currentEquity cfg.collateralAsset market.balances
  else none

/-- Whether a task finds the market unready, unless it is skipped. -/
def ControlEvent.unreadyRead : ControlEvent Raw → Option Bool
  | .task turn => if turn.updateEventSet then some !turn.ready else none
  | _ => none

/-- The equity a task gets to note. -/
def ControlEvent.equityRead (cfg : ControlConfig members) : ControlEvent Raw → Option (Option ℚ)
  | .task turn => if turn.updateEventSet ∧ turn.ready then turn.update.equityRead cfg else none
  | _ => none

end Reading

/-! ## What is announced -/

/-- How far the drawdown baseline has come. -/
def DrawdownBaseline.rank : Option DrawdownBaseline → ℕ
  | none => 0
  | some .blind => 1
  | some .armed => 2

def Notice.stage : Notice → ℕ
  | .drawdownBlind => 1
  | .drawdownArmed => 2
  | _ => 0

/-- The notices that lead from one state to another, kind by kind. -/
structure Announces (s after : ControlState) (notices : List Notice) : Prop where
  market : (ofKind .market notices = [] ∧ after.marketDataUnready = s.marketDataUnready) ∨
    (ofKind .market notices =
        [if !s.marketDataUnready then .marketDataUnready else .marketDataRecovered] ∧
      after.marketDataUnready = !s.marketDataUnready)
  equity : (ofKind .equity notices = [] ∧ after.unresolved = s.unresolved) ∨
    (ofKind .equity notices = [if !s.unresolved then .equityUnresolved else .equityResolved] ∧
      after.unresolved = !s.unresolved)
  drawdown : (ofKind .drawdown notices = [] ∧
      DrawdownBaseline.rank after.drawdownBaseline = DrawdownBaseline.rank s.drawdownBaseline) ∨
    ∃ notice, ofKind .drawdown notices = [notice] ∧
      notice.stage = DrawdownBaseline.rank after.drawdownBaseline ∧
      DrawdownBaseline.rank s.drawdownBaseline < DrawdownBaseline.rank after.drawdownBaseline

section Announced

variable {members : Finset Leg} {Raw : Type u} (usdcFlatTargets : FlatTargets)
  (validationErrors : ExecIntent → List String) (rule : FailClosed Raw)
  (cfg : ControlConfig members) {s after : ControlState}

theorem Announces.silent (hmarket : after.marketDataUnready = s.marketDataUnready)
    (hequity : after.equityResolved = s.equityResolved)
    (hdrawdown : after.drawdownBaseline = s.drawdownBaseline) : Announces s after [] := by
  refine ⟨.inl ⟨rfl, hmarket⟩, .inl ⟨rfl, ?_⟩, .inl ⟨rfl, ?_⟩⟩
  · rw [ControlState.unresolved, hequity]
    rfl
  · rw [hdrawdown]

/-- What the equity notices say, and whether the episode is open afterwards. -/
theorem noteEquity_equity (s : ControlState) (equity : Option ℚ) :
    (ofKind .equity (s.noteEquity equity).notices = [] ∧ equity.isNone = s.unresolved) ∨
      (ofKind .equity (s.noteEquity equity).notices =
          [if !s.unresolved then .equityUnresolved else .equityResolved] ∧
        equity.isNone = !s.unresolved) := by
  cases equity with
  | none =>
      by_cases hopen : s.equityResolved = some false
      · simp [ControlState.noteEquity, ControlState.unresolved, hopen, ofKind]
      · simp [ControlState.noteEquity, ControlState.unresolved, hopen, ofKind, Notice.kind]
  | some value =>
      by_cases hopen : s.equityResolved = some false
      · simp [ControlState.noteEquity, ControlState.unresolved, hopen, ofKind, Notice.kind]
      · simp [ControlState.noteEquity, ControlState.unresolved, hopen, ofKind]

theorem noteEquity_kind (s : ControlState) (equity : Option ℚ) :
    ∀ notice ∈ (s.noteEquity equity).notices, notice.kind = .equity := by
  unfold ControlState.noteEquity
  dsimp only
  split
  next => simp [Notice.kind]
  next => split <;> simp [Notice.kind]

/-- The peak changes nothing, or brings the baseline to a later stage and says so. -/
theorem notePeakEquity_cases (s : ControlState) (seeded : Bool) :
    s.notePeakEquity seeded = { state := s, completed := true } ∨
      ∃ stage notice, s.notePeakEquity seeded =
          { state := { s with drawdownBaseline := some stage }, notices := [notice]
            completed := true } ∧
        notice.kind = .drawdown ∧ notice.stage = DrawdownBaseline.rank (some stage) ∧
        DrawdownBaseline.rank s.drawdownBaseline < DrawdownBaseline.rank (some stage) := by
  unfold ControlState.notePeakEquity
  split
  next =>
    split
    next => exact .inl rfl
    next hopen =>
      refine .inr ⟨.armed, .drawdownArmed, rfl, rfl, rfl, ?_⟩
      cases hbaseline : s.drawdownBaseline with
      | none => decide
      | some stage =>
          cases stage with
          | blind => decide
          | armed => exact absurd hbaseline hopen
  next =>
    split
    next hnone =>
      refine .inr ⟨.blind, .drawdownBlind, rfl, rfl, rfl, ?_⟩
      rw [hnone]
      decide
    next => exact .inl rfl

theorem ofKind_append (kind : NoticeKind) (first second : List Notice) :
    ofKind kind (first ++ second) = ofKind kind first ++ ofKind kind second :=
  List.filter_append ..

theorem ofKind_eq_nil {kind other : NoticeKind} {notices : List Notice} (hne : other ≠ kind)
    (hkind : ∀ notice ∈ notices, notice.kind = other) : ofKind kind notices = [] := by
  refine List.filter_eq_nil_iff.mpr fun notice hnotice => ?_
  simpa [hkind notice hnotice] using hne

/-- Noting the equity, and then the peak where the update completes. -/
theorem evaluate_announces (s : ControlState) (update : Update Raw) (equity : Option ℚ) :
    Announces s (s.evaluate usdcFlatTargets validationErrors cfg update equity).state
      (s.evaluate usdcFlatTargets validationErrors cfg update equity).notices := by
  unfold ControlState.evaluate
  dsimp only
  generalize hevaluated : (if equity.isSome = true then _ else _ : Progress) = evaluated
  have hstate : ∃ client table, evaluated.state = { (s.noteEquity equity).state with
      client, table } := by
    rw [← hevaluated]
    split
    next =>
      exact ControlState.keeperCalls_state usdcFlatTargets validationErrors cfg _ update.tick.calls
    next =>
      exact ControlState.reconcile_state usdcFlatTargets validationErrors cfg _ update.reconcile
  obtain ⟨client, table, hstate⟩ := hstate
  have hkind := noteEquity_kind s equity
  have hunresolved : ∀ drawdownBaseline, ControlState.unresolved { evaluated.state with
      drawdownBaseline } = equity.isNone := by
    intro drawdownBaseline
    rw [hstate]
    cases equity <;> rfl
  have hequity := noteEquity_equity s equity
  have hnoted : Announces s evaluated.state (s.noteEquity equity).notices := by
    refine ⟨.inl ⟨ofKind_eq_nil (by decide) hkind, by rw [hstate]; rfl⟩, ?_,
      .inl ⟨ofKind_eq_nil (by decide) hkind, by rw [hstate]; rfl⟩⟩
    rw [← hunresolved evaluated.state.drawdownBaseline] at hequity
    exact hequity
  split
  next =>
    rcases notePeakEquity_cases evaluated.state update.peakSeeded with
      heq | ⟨stage, notice, heq, hdrawdown, hstage, hrank⟩
    · rw [heq, List.append_nil]
      exact hnoted
    · have hsingle : ∀ other ∈ [notice], other.kind = .drawdown := by simpa using hdrawdown
      rw [heq]
      dsimp only
      refine ⟨?_, ?_, .inr ⟨notice, ?_, hstage, ?_⟩⟩
      · rw [ofKind_append, ofKind_eq_nil (by decide) hsingle, List.append_nil]
        exact hnoted.market
      · rw [ofKind_append, ofKind_eq_nil (by decide) hsingle, List.append_nil]
        exact hnoted.equity
      · rw [ofKind_append, ofKind_eq_nil (by decide) hkind, List.nil_append]
        exact List.filter_eq_self.mpr fun other hother => by simpa using hsingle other hother
      · have hbase : evaluated.state.drawdownBaseline = s.drawdownBaseline := by
          rw [hstate]
          rfl
        rw [hbase] at hrank
        exact hrank
  next => exact hnoted

/-- However far an update gets, it announces what it changes. -/
theorem update_announces (s : ControlState) (update : Update Raw) :
    Announces s (s.updateProcessedData usdcFlatTargets validationErrors rule cfg update).state
      (s.updateProcessedData usdcFlatTargets validationErrors rule cfg update).notices := by
  unfold ControlState.updateProcessedData
  split
  next => exact .silent rfl rfl rfl
  next =>
    dsimp only
    split
    next => exact .silent rfl rfl rfl
    next market _ =>
      obtain ⟨client, table, hcalls⟩ := ControlState.keeperCalls_state usdcFlatTargets
        validationErrors cfg _ update.snapshot.calls
      rw [hcalls]
      split
      next => exact .silent rfl rfl rfl
      next =>
        obtain ⟨hmarket, hequity, hdrawdown⟩ := evaluate_announces usdcFlatTargets
          validationErrors cfg _ update (currentEquity cfg.collateralAsset market.balances)
        exact ⟨hmarket, hequity, hdrawdown⟩

/-- Changes elsewhere leave what is announced as it is. -/
theorem Announces.elsewhere {later : ControlState} {notices : List Notice}
    (h : Announces s after notices) (hmarket : later.marketDataUnready = after.marketDataUnready)
    (hequity : later.equityResolved = after.equityResolved)
    (hdrawdown : later.drawdownBaseline = after.drawdownBaseline) : Announces s later notices := by
  have hunresolved : later.unresolved = after.unresolved := by
    rw [ControlState.unresolved, hequity]
    rfl
  exact ⟨hmarket ▸ h.market, hunresolved ▸ h.equity, hdrawdown ▸ h.drawdown⟩

variable (quoteRefreshReason : RefreshQuery → Option String)

theorem Announces.decide {turn : Turn Raw} {notices : List Notice} {completed : Bool}
    (h : Announces s after notices) :
    Announces s (after.decide usdcFlatTargets cfg quoteRefreshReason turn notices completed).state
      notices := by
  obtain ⟨controller, table, hstate⟩ := after.decide_state usdcFlatTargets cfg
    quoteRefreshReason turn notices completed
  rw [hstate]
  exact h.elsewhere rfl rfl rfl

theorem Announces.forced {turn : Turn Raw} {notices : List Notice} (h : Announces s after notices) :
    Announces s (after.forceFlattenIntent usdcFlatTargets cfg turn) notices := by
  obtain ⟨table, hstate⟩ := after.forceFlattenIntent_state usdcFlatTargets cfg turn
  rw [hstate]
  exact h.elsewhere rfl rfl rfl

theorem Announces.recorded {turn : Turn Raw} {notices : List Notice}
    (h : Announces s after notices) : Announces s (after.recordVenueFailure turn) notices := by
  obtain ⟨venueCircuit, hstate⟩ := after.recordVenueFailure_state turn
  rw [hstate]
  exact h.elsewhere rfl rfl rfl

/-- A recovery of the market comes before what the update announces. -/
theorem Announces.recovered {notices : List Notice}
    (h : Announces { s with marketDataUnready := false } after notices)
    (hready : after.marketDataUnready = false) :
    Announces s after
      ((if s.marketDataUnready then [.marketDataRecovered] else []) ++ notices) := by
  have hother : ∀ kind, kind ≠ NoticeKind.market →
      ofKind kind ((if s.marketDataUnready then [Notice.marketDataRecovered] else []) ++ notices) =
        ofKind kind notices := by
    intro kind hkind
    have hmarket : ∀ notice ∈ (if s.marketDataUnready then [Notice.marketDataRecovered] else []),
        notice.kind = .market := by
      split <;> simp [Notice.kind]
    rw [ofKind_append, ofKind_eq_nil hkind.symm hmarket, List.nil_append]
  have hmarket : ofKind .market notices = [] := by
    rcases h.market with ⟨hnone, -⟩ | ⟨-, hflipped⟩
    · exact hnone
    · rw [hready] at hflipped
      cases hflipped
  refine ⟨?_, ?_, ?_⟩
  · rw [ofKind_append, hmarket, List.append_nil, hready]
    cases hunready : s.marketDataUnready with
    | true => exact .inr ⟨by simp [ofKind, Notice.kind], rfl⟩
    | false => exact .inl ⟨rfl, rfl⟩
  · rw [hother .equity (by decide)]
    exact h.equity
  · rw [hother .drawdown (by decide)]
    exact h.drawdown

theorem task_announces (s : ControlState) (turn : Turn Raw) :
    Announces s
      (s.result usdcFlatTargets validationErrors rule cfg quoteRefreshReason turn).state
      (s.result usdcFlatTargets validationErrors rule cfg quoteRefreshReason turn).notices := by
  unfold ControlState.result ControlState.controlTask
  split
  next => exact .silent rfl rfl rfl
  next =>
    split
    next =>
      have hunready : Announces s { s with marketDataUnready := true }
          (if s.marketDataUnready then [] else [.marketDataUnready]) := by
        cases hmarket : s.marketDataUnready with
        | true => exact .silent hmarket.symm rfl rfl
        | false =>
            refine ⟨.inr ⟨?_, by rw [hmarket]; rfl⟩, .inl ⟨rfl, rfl⟩, .inl ⟨rfl, rfl⟩⟩
            rw [hmarket]
            rfl
      exact (hunready.forced usdcFlatTargets cfg).decide usdcFlatTargets cfg quoteRefreshReason
    next =>
      have hupdate := (update_announces usdcFlatTargets validationErrors rule cfg
        { s with marketDataUnready := false } turn.update).recovered
        (ControlState.update_state usdcFlatTargets validationErrors rule cfg _ turn.update).2
      dsimp only
      split
      next => exact hupdate.decide usdcFlatTargets cfg quoteRefreshReason
      next =>
        split
        next => exact hupdate.recorded
        next =>
          exact (hupdate.recorded.forced usdcFlatTargets cfg).decide usdcFlatTargets cfg
            quoteRefreshReason

end Announced

section Run

variable {members : Finset Leg} {Raw : Type u} (usdcFlatTargets : FlatTargets)
  (validationErrors : ExecIntent → List String) (rule : FailClosed Raw)
  (cfg : ControlConfig members) (quoteRefreshReason : RefreshQuery → Option String)

/-- Equity is unresolved after an update that noted none. -/
theorem update_unresolved (s : ControlState) (update : Update Raw) :
    (s.updateProcessedData usdcFlatTargets validationErrors rule cfg update).state.unresolved =
      ((update.equityRead cfg).map Option.isNone).getD s.unresolved := by
  unfold ControlState.updateProcessedData
  split
  next hmargin => simp [Update.equityRead, hmargin]
  next hmargin =>
    dsimp only
    split
    next hmarket =>
      have hread : update.equityRead cfg = none := by simp [Update.equityRead, hmarket]
      rw [hread]
      rfl
    next market hmarket =>
      obtain ⟨client, table, hcalls⟩ := ControlState.keeperCalls_state usdcFlatTargets
        validationErrors cfg _ update.snapshot.calls
      rw [hcalls]
      split
      next hcut =>
        have hcut : update.snapshot.completes = false := by simpa using hcut
        have hread : update.equityRead cfg = none := by simp [Update.equityRead, hcut]
        rw [hread]
        rfl
      next hcompletes =>
        obtain ⟨client, table, baseline, hstate⟩ := ControlState.evaluate_state usdcFlatTargets
          validationErrors cfg _ update (currentEquity cfg.collateralAsset market.balances)
        have hread : update.equityRead cfg =
            some (currentEquity cfg.collateralAsset market.balances) := by
          simpa [Update.equityRead, hmargin, hmarket] using hcompletes
        rw [hstate, hread]
        generalize currentEquity cfg.collateralAsset market.balances = equity
        cases equity <;> rfl

/-- What an event logs. -/
def noticed (s : ControlState) : ControlEvent Raw → List Notice
  | .task turn =>
      (s.result usdcFlatTargets validationErrors rule cfg quoteRefreshReason turn).notices
  | _ => []

/-- After an event the market and the equity are noted as it read them, and what
has changed is announced. -/
structure Follows (s : ControlState) (event : ControlEvent Raw) : Prop where
  market : (s.step usdcFlatTargets validationErrors rule cfg quoteRefreshReason
    event).marketDataUnready = event.unreadyRead.getD s.marketDataUnready
  equity : (s.step usdcFlatTargets validationErrors rule cfg quoteRefreshReason
    event).unresolved = ((event.equityRead cfg).map Option.isNone).getD s.unresolved
  announces : Announces s (s.step usdcFlatTargets validationErrors rule cfg quoteRefreshReason
    event) (noticed usdcFlatTargets validationErrors rule cfg quoteRefreshReason s event)

theorem decide_reads (s : ControlState) (turn : Turn Raw) (notices : List Notice)
    (completed : Bool) :
    let after := (s.decide usdcFlatTargets cfg quoteRefreshReason turn notices completed).state
    after.marketDataUnready = s.marketDataUnready ∧ after.unresolved = s.unresolved := by
  intro after
  obtain ⟨controller, table, hstate⟩ := s.decide_state usdcFlatTargets cfg quoteRefreshReason turn
    notices completed
  unfold after
  rw [hstate]
  exact ⟨rfl, rfl⟩

theorem forced_reads (s : ControlState) (turn : Turn Raw) :
    let after := s.forceFlattenIntent usdcFlatTargets cfg turn
    after.marketDataUnready = s.marketDataUnready ∧ after.unresolved = s.unresolved := by
  intro after
  obtain ⟨table, hstate⟩ := s.forceFlattenIntent_state usdcFlatTargets cfg turn
  unfold after
  rw [hstate]
  exact ⟨rfl, rfl⟩

theorem recorded_reads (s : ControlState) (turn : Turn Raw) :
    (s.recordVenueFailure turn).marketDataUnready = s.marketDataUnready ∧
      (s.recordVenueFailure turn).unresolved = s.unresolved := by
  obtain ⟨venueCircuit, hstate⟩ := s.recordVenueFailure_state turn
  rw [hstate]
  exact ⟨rfl, rfl⟩

theorem task_reads (s : ControlState) (turn : Turn Raw) :
    let after := (s.result usdcFlatTargets validationErrors rule cfg quoteRefreshReason turn).state
    let event : ControlEvent Raw := .task turn
    after.marketDataUnready = event.unreadyRead.getD s.marketDataUnready ∧
      after.unresolved = ((event.equityRead cfg).map Option.isNone).getD s.unresolved := by
  unfold ControlState.result ControlState.controlTask
  intro after event
  unfold after event ControlEvent.unreadyRead ControlEvent.equityRead
  dsimp only
  split
  next hidle =>
    have hidle : turn.updateEventSet = false := by simpa using hidle
    simp [hidle]
  next hset =>
    have hset : turn.updateEventSet = true := by simpa using hset
    split
    next hunready =>
      have hunready : turn.ready = false := by simpa using hunready
      have hdecide := decide_reads usdcFlatTargets cfg quoteRefreshReason
        (ControlState.forceFlattenIntent usdcFlatTargets cfg { s with marketDataUnready := true }
          turn) turn (if s.marketDataUnready then [] else [.marketDataUnready]) false
      have hforced := forced_reads usdcFlatTargets cfg { s with marketDataUnready := true } turn
      rw [hdecide.1, hdecide.2, hforced.1, hforced.2, hset, hunready]
      exact ⟨rfl, rfl⟩
    next hready =>
      have hready : turn.ready = true := by simpa using hready
      have hupdate := ControlState.update_state usdcFlatTargets validationErrors rule cfg
        { s with marketDataUnready := false } turn.update
      have hnoted := update_unresolved usdcFlatTargets validationErrors rule cfg
        { s with marketDataUnready := false } turn.update
      simp only [hset, hready, and_self, if_true, Bool.not_true, Option.getD_some]
      split
      next =>
        rw [(decide_reads ..).1, (decide_reads ..).2]
        exact ⟨hupdate.2, hnoted⟩
      next =>
        split
        next =>
          rw [(recorded_reads ..).1, (recorded_reads ..).2]
          exact ⟨hupdate.2, hnoted⟩
        next =>
          rw [(decide_reads ..).1, (decide_reads ..).2, (forced_reads ..).1, (forced_reads ..).2,
            (recorded_reads ..).1, (recorded_reads ..).2]
          exact ⟨hupdate.2, hnoted⟩

theorem event_follows (s : ControlState) (event : ControlEvent Raw) :
    Follows usdcFlatTargets validationErrors rule cfg quoteRefreshReason s event := by
  cases event with
  | task turn =>
      have hreads := task_reads usdcFlatTargets validationErrors rule cfg quoteRefreshReason s turn
      exact ⟨hreads.1, hreads.2,
        task_announces usdcFlatTargets validationErrors rule cfg quoteRefreshReason s turn⟩
  | sibling call =>
      obtain ⟨table, htable⟩ := step_sibling usdcFlatTargets validationErrors rule cfg
        quoteRefreshReason s call
      refine ⟨?_, ?_, ?_⟩ <;> rw [htable]
      · rfl
      · rfl
      · exact .silent rfl rfl rfl
  | connector connector => exact ⟨rfl, rfl, .silent rfl rfl rfl⟩

/-- Over every run from construction, whatever fails in between, an event logs a
notice of the market or of the equity exactly when what it reads of it has
changed. So each unready market and each loss of the equity is announced once
and its end once, in alternation, and the drawdown baseline is announced at most
once as blind and then at most once as armed. -/
theorem episodes_announced_once (venueCircuit : VenueCircuitBreaker) (connector : Connector)
    (table : Table) (events : List (ControlEvent Raw)) :
    let step := ControlState.step usdcFlatTargets validationErrors rule cfg quoteRefreshReason
    let start := ControlState.init cfg venueCircuit connector table
    let log := emitted step
      (noticed usdcFlatTargets validationErrors rule cfg quoteRefreshReason) start events
    Along step (Follows usdcFlatTargets validationErrors rule cfg quoteRefreshReason) start
        events ∧
      Alternates .marketDataUnready .marketDataRecovered (ofKind .market log) ∧
      Alternates .equityUnresolved .equityResolved (ofKind .equity log) ∧
      (ofKind .drawdown log).Pairwise (fun earlier later => earlier.stage < later.stage) := by
  intro step start log
  have hfollows := event_follows usdcFlatTargets validationErrors rule cfg quoteRefreshReason
  refine ⟨Along.of_invariant (fun _ => True) (fun _ _ _ => trivial)
    (fun s event _ => hfollows s event) trivial events, ?_, ?_, ?_⟩
  · rw [ofKind, filter_emitted]
    exact emitted_alternates ControlState.marketDataUnready
      (fun phase => if phase then Notice.marketDataUnready else Notice.marketDataRecovered)
      (fun s event => (hfollows s event).announces.market) start events
  · rw [ofKind, filter_emitted]
    exact emitted_alternates ControlState.unresolved
      (fun phase => if phase then Notice.equityUnresolved else Notice.equityResolved)
      (fun s event => (hfollows s event).announces.equity) start events
  · rw [ofKind, filter_emitted]
    exact (emitted_ascends (fun s : ControlState => DrawdownBaseline.rank s.drawdownBaseline)
      Notice.stage (fun s event => (hfollows s event).announces.drawdown) start events).1

end Run

end Opms.PerpMM
