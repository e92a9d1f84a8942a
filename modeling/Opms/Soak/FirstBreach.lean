import Opms.Soak.Monitor
import Mathlib.Data.List.DropRight
import Mathlib.Tactic.Linarith

/-! # The monitor stops at the first breach

The counters of the loop summarize the rounds so far: the peak is the largest
equity sampled, and the error count and the first error belong to the rounds
since the last sample. So the monitor stops at the first round that a verdict on
the whole history condemns.
-/

namespace Opms.Soak

open Foundation

namespace Monitor

variable (m : Monitor)

/-! ## What the history says -/

/-- The portfolio equity that a round sampled. -/
def equity? (round : Round) : Option ℚ :=
  match m.samples round with
  | .ok samples => some (samples.map AccountSample.equity).sum
  | .error _ => none

/-- The round could not read the accounts. -/
def blind (round : Round) : Bool := (m.equity? round).isNone

/-- The largest equity of the rounds. -/
def peak (history : List Round) : ℚ := (history.filterMap m.equity?).foldl max 0

/-- The rounds since the last sample. -/
def spell (history : List Round) : List Round := history.rtakeWhile m.blind

/-- When the first of them noted its error. -/
def blindSince (history : List Round) : Option ℚ := (m.spell history).head?.map Round.notedAt

/-- How a round ends the monitor, given the rounds before it. -/
def verdict (history : List Round) (round : Round) : Option (ExitKind × List ℕ) :=
  if !m.goesOn round then
    if m.deadline ≤ round.endedAt ∧ m.pids.any round.aliveAfter then some (.returned 1, m.pids)
    else some (.returned 0, [])
  else if (decisionLivenessBreach m round.now round.logs).isSome then
    some (.returned 1, m.pids)
  else
    match m.samples round with
    | .ok samples =>
        if (sampleBreach m samples (m.peak (history ++ [round]))).isSome then
          some (.returned 1, m.pids)
        else none
    | .error _ =>
        if 1024 < (m.spell (history ++ [round])).length then some (.raised, [])
        else if m.maxReadOutageS ≤
            round.notedAt - (m.blindSince (history ++ [round])).getD round.notedAt then
          some (.returned 1, m.pids)
        else none

/-! ## The counters -/

/-- The state has counted the history. -/
structure Counts (history : List Round) (s : MonitorState) : Prop where
  consecutiveErrors : s.consecutiveErrors = (m.spell history).length
  firstReadErrorAt : s.firstReadErrorAt = m.blindSince history
  peakEquity : s.peakEquity = m.peak history

variable {m} {history : List Round} {round : Round} {s : MonitorState}

theorem equity?_of_samples {samples : List AccountSample} (hread : m.samples round = .ok samples) :
    m.equity? round = some (samples.map AccountSample.equity).sum := by
  rw [equity?, hread]

theorem equity?_of_error {message : String} (hread : m.samples round = .error message) :
    m.equity? round = none := by
  rw [equity?, hread]

theorem peak_concat (history : List Round) (round : Round) :
    m.peak (history ++ [round]) = ((m.equity? round).map (max (m.peak history))).getD
      (m.peak history) := by
  unfold peak
  rw [List.filterMap_append, List.foldl_append]
  cases hequity : m.equity? round with
  | none => simp [hequity]
  | some equity => simp [hequity]

/-- A round without a sample prolongs the spell. -/
theorem spell_concat_blind (hblind : m.blind round = true) (history : List Round) :
    m.spell (history ++ [round]) = m.spell history ++ [round] :=
  List.rtakeWhile_concat_pos _ _ _ hblind

theorem spell_concat_sample (hblind : m.blind round = false) (history : List Round) :
    m.spell (history ++ [round]) = [] :=
  List.rtakeWhile_concat_neg _ _ _ (by simp [hblind])

theorem blindSince_concat_blind (hblind : m.blind round = true) (history : List Round) :
    m.blindSince (history ++ [round]) = some ((m.blindSince history).getD round.notedAt) := by
  unfold blindSince
  rw [spell_concat_blind hblind]
  cases m.spell history with
  | nil => rfl
  | cons first rest => rfl

theorem readErrorDelayS_eq_none_iff (consecutive : ℕ) (intervalS maxDelayS : ℚ) :
    readErrorDelayS consecutive intervalS maxDelayS = none ↔ 1024 < consecutive := by
  unfold readErrorDelayS floatTimesPow
  split
  next hsmall => exact iff_of_false (fun hnone => by cases hnone) (by omega)
  next hlarge => exact iff_of_true rfl (by omega)

/-! ## One round -/

/-- What is compared: how the monitor ends, and what it signals. -/
def outcome (exit : Exit) : ExitKind × List ℕ := (exit.kind, exit.signalled)

theorem noteSamples_verdict (h : m.Counts history s) {samples : List AccountSample}
    (hread : m.samples round = .ok samples) :
    stopped outcome (m.noteSamples s round samples) =
        (if (sampleBreach m samples (m.peak (history ++ [round]))).isSome then
          some (.returned 1, m.pids) else none) ∧
      ∀ next, m.noteSamples s round samples = .ok next → m.Counts (history ++ [round]) next := by
  have hequity := equity?_of_samples hread
  have hblind : m.blind round = false := by rw [blind, hequity]; rfl
  have hpeak : m.peak (history ++ [round]) =
      max s.peakEquity (samples.map AccountSample.equity).sum := by
    rw [peak_concat, hequity, h.peakEquity]
    rfl
  unfold noteSamples
  dsimp only
  rw [hpeak]
  cases hbreach : sampleBreach m samples (max s.peakEquity (samples.map AccountSample.equity).sum) with
  | some breach => exact ⟨rfl, fun next hnext => by cases hnext⟩
  | none =>
      refine ⟨rfl, fun next hnext => ?_⟩
      obtain rfl := Except.ok.inj hnext
      refine ⟨?_, ?_, hpeak.symm⟩
      · rw [spell_concat_sample hblind]
        rfl
      · rw [blindSince, spell_concat_sample hblind]
        rfl

theorem noteError_verdict (h : m.Counts history s) {message : String}
    (hread : m.samples round = .error message) :
    stopped outcome (m.noteError s round message) =
        (if 1024 < (m.spell (history ++ [round])).length then some (.raised, [])
        else if m.maxReadOutageS ≤
            round.notedAt - (m.blindSince (history ++ [round])).getD round.notedAt then
          some (.returned 1, m.pids)
        else none) ∧
      ∀ next, m.noteError s round message = .ok next → m.Counts (history ++ [round]) next := by
  have hequity := equity?_of_error hread
  have hblind : m.blind round = true := by rw [blind, hequity]; rfl
  have hcount : s.consecutiveErrors + 1 = (m.spell (history ++ [round])).length := by
    rw [spell_concat_blind hblind, List.length_append, List.length_singleton, h.consecutiveErrors]
  have hsince : some (s.firstReadErrorAt.getD round.notedAt) = m.blindSince (history ++ [round]) := by
    rw [blindSince_concat_blind hblind, h.firstReadErrorAt]
  unfold noteError
  dsimp only
  rw [← hcount, ← hsince]
  cases hdelay : readErrorDelayS (s.consecutiveErrors + 1) m.interval m.maxReadRetryDelayS with
  | none =>
      rw [if_pos ((readErrorDelayS_eq_none_iff _ _ _).mp hdelay)]
      exact ⟨rfl, fun next hnext => by cases hnext⟩
  | some retryDelay =>
      have hfew : ¬ 1024 < s.consecutiveErrors + 1 := by
        rw [← readErrorDelayS_eq_none_iff _ m.interval m.maxReadRetryDelayS, hdelay]
        exact fun hnone => by cases hnone
      rw [if_neg hfew]
      simp only [readOutageBreached, decide_eq_true_eq, Option.getD_some]
      split
      next => exact ⟨rfl, fun next hnext => by cases hnext⟩
      next =>
        refine ⟨rfl, fun next hnext => ?_⟩
        obtain rfl := Except.ok.inj hnext
        refine ⟨hcount, hsince, ?_⟩
        rw [peak_concat, hequity]
        exact h.peakEquity

theorem round_verdict (history : List Round) (s : MonitorState) (round : Round)
    (h : m.Counts history s) :
    stopped outcome (m.round s round) = m.verdict history round ∧
      ∀ next, m.round s round = .ok next → m.Counts (history ++ [round]) next := by
  unfold Monitor.round verdict
  split
  next =>
    refine ⟨?_, fun next hnext => by cases hnext⟩
    unfold finish
    split <;> rfl
  next =>
    cases hlogs : decisionLivenessBreach m round.now round.logs with
    | some breach => exact ⟨rfl, fun next hnext => by cases hnext⟩
    | none =>
        dsimp only
        rw [Option.isSome_none, if_neg Bool.false_ne_true]
        cases hread : m.samples round with
        | ok samples => exact noteSamples_verdict h hread
        | error message => exact noteError_verdict h hread

/-- The loop keeps the counters and ends with the first verdict. -/
theorem run_refines (m : Monitor) (rounds : List Round) :
    stopped outcome (m.run rounds) = firstVerdict m.verdict [] rounds ∧
      ∀ final, m.run rounds = .ok final → m.Counts rounds final :=
  loop_refines outcome m.Counts (fun history s round h => round_verdict history s round h)
    ⟨rfl, rfl, rfl⟩ rounds

/-- The monitor ends at the first round on which the history passes a verdict,
in the way the verdict says, and goes on as long as there is none: the peak is
the largest portfolio equity sampled so far, an outage runs from the first error
since the last sample, and the retry delay overflows at the 1025th error in a
row. -/
theorem monitor_stops_at_first_verdict (m : Monitor) (rounds : List Round) :
    stopped outcome (m.run rounds) = firstVerdict m.verdict [] rounds :=
  (run_refines m rounds).1

end Monitor

end Opms.Soak
