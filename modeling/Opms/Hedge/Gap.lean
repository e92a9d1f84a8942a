import Opms.Foundation.Run
import Opms.Hedge.Controller
import Mathlib.Data.NNRat.Defs

/-! # Hedging a gap once

An executor works its share of the hedge until it fills or ends. The controller
sizes every executor from the position alone and does not see the ones still at
work, so a cycle that finds one of them works the same gap again.
-/

namespace Opms.Hedge

open Foundation PassiveAggressive

/-- An executor at work: part of its amount is still unfilled. -/
structure Working where
  id : ℕ
  config : PassiveAggressiveExecutorConfig
  /-- The distance to the target at the cycle that created it. -/
  gap : ℚ
  filled : ℚ≥0 := 0
  hopen : (filled : ℚ) < config.totalAmountBase

namespace Working

def unfilled (executor : Working) : ℚ := executor.config.totalAmountBase - executor.filled

theorem unfilled_pos (executor : Working) : 0 < executor.unfilled := sub_pos.mpr executor.hopen

/-- The executor after a fill; a filled one stops working. -/
def fill (executor : Working) (amount : ℚ≥0) : Option Working :=
  if hopen : ((executor.filled + amount : ℚ≥0) : ℚ) < executor.config.totalAmountBase then
    some { executor with filled := executor.filled + amount, hopen := hopen }
  else
    none

theorem fill_keeps {executor after : Working} {amount : ℚ≥0}
    (hfill : executor.fill amount = some after) :
    after.config = executor.config ∧ after.gap = executor.gap := by
  unfold fill at hfill
  split at hfill
  next =>
    obtain rfl := Option.some.inj hfill
    exact ⟨rfl, rfl⟩
  next => cases hfill

/-- A new executor; one without an amount has nothing to work. -/
def launch (id : ℕ) (config : PassiveAggressiveExecutorConfig) (gap : ℚ) : Option Working :=
  if hopen : ((0 : ℚ≥0) : ℚ) < config.totalAmountBase then
    some { id := id, config := config, gap := gap, hopen := hopen }
  else
    none

end Working

/-- The books, the positions, and the executors of one controller. -/
structure World where
  books : Books
  positionsHeld : List PositionSummary
  working : List Working := []
  nextId : ℕ := 0

inductive Event
  /-- A pool controller reports to a book. -/
  | feed (key : String) (netDelta inventoryValueUsd sigma mid ts : ℚ)
  /-- A control cycle reads the clock when it asks the engine and when it acts. -/
  | cycle (askedAt actedAt : ℚ) (evaluate : Engine)
  | fill (id : ℕ) (amount : ℚ≥0)
  | finish (id : ℕ)

namespace World

variable (cfg : HedgeControllerConfig)

/-- A new controller: its book exists, and it has created nothing. -/
def start (books : Books) (positionsHeld : List PositionSummary) : World where
  books := if cfg.sharedBookKey = "" then books else getSharedBook books cfg.sharedBookKey
  positionsHeld := positionsHeld

/-- `update_processed_data` on the shared book. -/
def ask (w : World) (now : ℚ) (evaluate : Engine) : World :=
  if cfg.sharedBookKey = "" then w
  else { w with
    books := w.books.modify cfg.sharedBookKey
      (updateProcessedData cfg w.positionsHeld now evaluate) }

/-- The distance between the position and the target short. -/
def gap (w : World) : ℚ :=
  match sharedBook cfg w.books with
  | none => 0
  | some book => |-book.hedgeTargetShort - currentPerpPosition cfg w.positionsHeld|

def create (w : World) (gap : ℚ) (action : CreateExecutorAction) : World :=
  { w with
    working := w.working ++ (Working.launch w.nextId action.executorConfig gap).toList
    nextId := w.nextId + 1 }

/-- `determine_executor_actions`, and the executors it asks for. -/
def act (w : World) (now : ℚ) : World :=
  (determineExecutorActions cfg w.positionsHeld now (sharedBook cfg w.books)).foldl
    (fun world action => world.create (w.gap cfg) action) w

/-- A fill moves the position and fills the executor. -/
def fill (w : World) (id : ℕ) (amount : ℚ≥0) : World :=
  match w.working.find? (·.id = id) with
  | none => w
  | some executor =>
      { w with
        positionsHeld := w.positionsHeld ++ [fillEntry executor.config amount]
        working := w.working.filterMap fun executor =>
          if executor.id = id then executor.fill amount else some executor }

def step (w : World) : Event → World
  | .feed key netDelta inventoryValueUsd sigma mid ts =>
      { w with
        books := w.books.modify key fun book => { book with
          dlmmNetDelta := netDelta
          dlmmInventoryValueUsd := inventoryValueUsd
          dlmmSigma := sigma
          dlmmMid := mid
          lastDlmmTs := ts } }
  | .cycle askedAt actedAt evaluate => (w.ask cfg askedAt evaluate).act cfg actedAt
  | .fill id amount => w.fill id amount
  | .finish id => { w with working := w.working.filter (·.id ≠ id) }

/-- The amounts still unfilled are within the gap of the last one created. -/
def WithinGap (w : World) : Prop :=
  ∀ last ∈ w.working.getLast?, (w.working.map Working.unfilled).sum ≤ last.gap

/-- The engine's answer asks for a trade that is not too small to make. -/
def HedgeDue (w : World) : Event → Prop
  | .cycle askedAt _ evaluate => ∃ book ∈ sharedBook cfg w.books,
      WantsHedge cfg w.positionsHeld
        (updateProcessedData cfg w.positionsHeld askedAt evaluate book)
  | _ => False

/-! ## One step -/

variable {cfg} {w : World}

@[simp] theorem ask_positionsHeld (now : ℚ) (evaluate : Engine) :
    (w.ask cfg now evaluate).positionsHeld = w.positionsHeld := by
  unfold ask
  split
  next => rfl
  next => rfl

@[simp] theorem ask_working (now : ℚ) (evaluate : Engine) :
    (w.ask cfg now evaluate).working = w.working := by
  unfold ask
  split
  next => rfl
  next => rfl

/-- The engine's answer is noted in the shared book, if there is one. -/
theorem ask_sharedBook (now : ℚ) (evaluate : Engine) :
    sharedBook cfg (w.ask cfg now evaluate).books =
      (sharedBook cfg w.books).map (updateProcessedData cfg w.positionsHeld now evaluate) := by
  unfold ask sharedBook
  split
  next => rfl
  next => exact Registry.lookup_modify_self _ _ _

variable (cfg) in
/-- Acting adds one executor over the whole gap, or none. -/
theorem act_working (w : World) (now : ℚ) :
    (∃ new : Working, (w.act cfg now).working = w.working ++ [new] ∧
      new.config.totalAmountBase = new.gap ∧ new.unfilled = new.gap ∧
      ∃ book ∈ sharedBook cfg w.books, WantsHedge cfg w.positionsHeld book) ∨
    ((w.act cfg now).working = w.working ∧
      ∀ book ∈ sharedBook cfg w.books, ¬ WantsHedge cfg w.positionsHeld book) := by
  cases hbook : sharedBook cfg w.books with
  | none => exact .inr ⟨by rw [act, hbook]; rfl, fun book hmem => by cases hmem⟩
  | some book =>
      by_cases hwants : WantsHedge cfg w.positionsHeld book
      · have hgap : w.gap cfg = |hedgeDelta cfg w.positionsHeld book| := by
          simp only [gap, hbook, hedgeDelta]
        have hopen : ((0 : ℚ≥0) : ℚ) <
            (hedgeConfig cfg now (hedgeDelta cfg w.positionsHeld book)).totalAmountBase := by
          simpa [hedgeConfig] using hwants.delta_pos
        refine .inl ⟨⟨w.nextId, _, |hedgeDelta cfg w.positionsHeld book|, 0, hopen⟩, ?_, rfl, ?_,
          book, rfl, hwants⟩
        · rw [act, hbook, determineExecutorActions_some, if_pos hwants, hgap]
          simp only [List.foldl_cons, List.foldl_nil, create, Working.launch, dif_pos hopen]
          rfl
        · simp [Working.unfilled, hedgeConfig]
      · refine .inr ⟨?_, fun other hmem => ?_⟩
        · rw [act, hbook, determineExecutorActions_some, if_neg hwants, List.foldl_nil]
        · obtain rfl := Option.some.inj hmem
          exact hwants

/-- No executor was added, and those left work for the same gaps. -/
structure Thinned (w after : World) : Prop where
  length_le : after.working.length ≤ w.working.length
  kept : ∀ executor ∈ after.working, ∃ before ∈ w.working,
    executor.config = before.config ∧ executor.gap = before.gap

theorem Thinned.of_working_eq {after : World} (hsame : after.working = w.working) :
    Thinned w after :=
  ⟨le_of_eq (congrArg List.length hsame),
    fun executor hmem => ⟨executor, hsame ▸ hmem, rfl, rfl⟩⟩

theorem fill_thinned (w : World) (id : ℕ) (amount : ℚ≥0) : Thinned w (w.fill id amount) := by
  unfold fill
  split
  next => exact .of_working_eq rfl
  next =>
    refine ⟨List.length_filterMap_le _ _, fun executor hmem => ?_⟩
    obtain ⟨before, hbefore, hfill⟩ := List.mem_filterMap.mp hmem
    refine ⟨before, hbefore, ?_⟩
    split at hfill
    next => exact Working.fill_keeps hfill
    next =>
      obtain rfl := Option.some.inj hfill
      exact ⟨rfl, rfl⟩

/-- A due hedge adds one executor over the whole gap; nothing else adds one. -/
theorem step_working (w : World) (event : Event) :
    (HedgeDue cfg w event ∧ ∃ new : Working, (w.step cfg event).working = w.working ++ [new] ∧
      new.config.totalAmountBase = new.gap ∧ new.unfilled = new.gap) ∨
    (¬ HedgeDue cfg w event ∧ Thinned w (w.step cfg event)) := by
  cases event with
  | feed key netDelta inventoryValueUsd sigma mid ts =>
      exact .inr ⟨fun hdue => hdue, .of_working_eq rfl⟩
  | cycle askedAt actedAt evaluate =>
      have hact := act_working cfg (w.ask cfg askedAt evaluate) actedAt
      rw [ask_sharedBook, ask_positionsHeld, ask_working] at hact
      simp only [Option.mem_def, Option.map_eq_some_iff] at hact
      rcases hact with
        ⟨new, hadd, hsize, hunfilled, _, ⟨book, hbook, rfl⟩, hwants⟩ | ⟨hsame, hquiet⟩
      · exact .inl ⟨⟨book, hbook, hwants⟩, new, hadd, hsize, hunfilled⟩
      · refine .inr ⟨?_, .of_working_eq hsame⟩
        rintro ⟨book, hbook, hwants⟩
        exact hquiet _ ⟨book, hbook, rfl⟩ hwants
  | fill id amount => exact .inr ⟨fun hdue => hdue, w.fill_thinned id amount⟩
  | finish id =>
      refine .inr ⟨fun hdue => hdue, List.length_filter_le _ _, fun executor hmem => ?_⟩
      exact ⟨executor, (List.mem_filter.mp hmem).1, rfl, rfl⟩

/-! ## Whole runs -/

/-- At most one executor works, and it was sized to its gap. -/
structure Single (w : World) : Prop where
  length_le : w.working.length ≤ 1
  sized : ∀ executor ∈ w.working, executor.config.totalAmountBase = executor.gap

theorem Single.withinGap (hsingle : Single w) : WithinGap w := by
  intro last hlast
  cases hworking : w.working with
  | nil => rw [hworking] at hlast; cases hlast
  | cons executor rest =>
      obtain rfl : rest = [] := by
        have hlength := hsingle.length_le
        rw [hworking, List.length_cons] at hlength
        exact List.length_eq_zero_iff.mp (by omega)
      obtain rfl : executor = last := by
        rw [hworking] at hlast
        exact Option.some.inj hlast
      have hsize := hsingle.sized executor (by rw [hworking]; exact List.mem_singleton_self _)
      have hfilled : (0 : ℚ) ≤ executor.filled := executor.filled.coe_nonneg
      simp only [List.map_cons, List.map_nil, List.sum_singleton, Working.unfilled]
      linarith

/-- Beside a new executor over the whole gap there is room for no other. -/
theorem withinGap_append_iff {working : List Working} {new : Working}
    (hworking : w.working = working ++ [new]) (hunfilled : new.unfilled = new.gap) :
    WithinGap w ↔ working = [] := by
  simp only [WithinGap, hworking, List.getLast?_append, List.getLast?_singleton,
    Option.some_or, Option.mem_def, Option.some.injEq, forall_eq', List.map_append, List.map_cons,
    List.map_nil, List.sum_append, List.sum_singleton, hunfilled]
  constructor
  · intro hwithin
    cases working with
    | nil => rfl
    | cons executor rest =>
        have hrest : 0 ≤ (rest.map Working.unfilled).sum :=
          List.sum_nonneg fun amount hmem => by
            obtain ⟨other, _, rfl⟩ := List.mem_map.mp hmem
            exact other.unfilled_pos.le
        have hpos := executor.unfilled_pos
        rw [List.map_cons, List.sum_cons] at hwithin
        linarith
  · rintro rfl
    simp

/-- The controller hedges only with nothing at work. -/
def HedgesAlone (cfg : HedgeControllerConfig) (w : World) (event : Event) : Prop :=
  HedgeDue cfg w event → w.working = []

theorem Single.step (hsingle : Single w) {event : Event} (halone : HedgesAlone cfg w event) :
    Single (w.step cfg event) := by
  rcases w.step_working event with ⟨hdue, new, hadd, hsize, _⟩ | ⟨_, hthinned⟩
  · rw [halone hdue, List.nil_append] at hadd
    refine ⟨by rw [hadd, List.length_singleton], fun executor hmem => ?_⟩
    rw [hadd, List.mem_singleton] at hmem
    rw [hmem, hsize]
  · refine ⟨hthinned.length_le.trans hsingle.length_le, fun executor hmem => ?_⟩
    obtain ⟨before, hbefore, hconfig, hgap⟩ := hthinned.kept executor hmem
    rw [hconfig, hgap]
    exact hsingle.sized before hbefore

theorem Single.step_withinGap_iff (hsingle : Single w) (event : Event) :
    WithinGap (w.step cfg event) ↔ HedgesAlone cfg w event := by
  constructor
  · intro hwithin hdue
    rcases w.step_working event with ⟨_, new, hadd, _, hunfilled⟩ | ⟨hquiet, _⟩
    · exact (withinGap_append_iff hadd hunfilled).mp hwithin
    · exact absurd hdue hquiet
  · intro halone
    exact (hsingle.step halone).withinGap

theorem single_start (books : Books) (positionsHeld : List PositionSummary) :
    Single (start cfg books positionsHeld) :=
  ⟨Nat.zero_le _, fun _ hmem => by cases hmem⟩

/-- The unfilled amounts stay within the gap of the last executor created, in
every state of a run, exactly when no cycle of it hedges while one works. -/
theorem hedge_within_gap_iff (cfg : HedgeControllerConfig) (books : Books)
    (positionsHeld : List PositionSummary) (events : List Event) :
    (∀ before after, events = before ++ after →
        WithinGap (run (step cfg) (start cfg books positionsHeld) before)) ↔
      Along (step cfg) (HedgesAlone cfg) (start cfg books positionsHeld) events := by
  have hstart : Single (start cfg books positionsHeld) := single_start books positionsHeld
  rw [Along.iff_reached hstart.withinGap]
  have hany : Along (step cfg) (fun _ _ => True) (start cfg books positionsHeld) events :=
    Along.of_invariant (fun _ => True) (fun _ _ _ => trivial) (fun _ _ _ => trivial) trivial events
  refine Along.congr_of_invariant Single ?_ ?_ hstart hany
  · intro w event hsingle _
    exact hsingle.step_withinGap_iff event
  · intro w event hsingle _ hwithin
    exact hsingle.step ((hsingle.step_withinGap_iff event).mp hwithin)

end World

/-! ## A hedge worked twice -/

def sampleHedge : HedgeControllerConfig where
  id := "hedge-1"
  perpConnector := "hyperliquid_perpetual"
  perpTradingPair := "SOL-USD"
  sharedBookKey := "sol"

/-- The engine asks for a short of five in two cycles. Nothing fills between
them, and the second executor works the first one's gap again. -/
theorem second_cycle_doubles_hedge :
    let rehedge : Engine := fun _ => ("rehedge", 5)
    let w := run (World.step sampleHedge) (World.start sampleHedge Registry.empty [])
      [.cycle 0 0 rehedge, .cycle 5 5 rehedge]
    w.positionsHeld = [] ∧ w.working.map Working.gap = [5, 5] ∧
      w.working.map Working.unfilled = [5, 5] ∧ ¬ w.WithinGap := by
  intro rehedge w
  have hlast : w.working.getLast?.map Working.gap = some 5 := by decide +kernel
  have hten : (w.working.map Working.unfilled).sum = 10 := by decide +kernel
  refine ⟨by decide +kernel, by decide +kernel, by decide +kernel, fun hwithin => ?_⟩
  obtain ⟨last, hmem, hgap⟩ := Option.map_eq_some_iff.mp hlast
  have hle := hwithin last hmem
  rw [hten, hgap] at hle
  norm_num at hle

end Opms.Hedge
