import Opms.Soak.FirstBreach
import Opms.Foundation.Checks

/-! # What the monitor lets pass

As long as the monitor goes on, everything it has seen is within the limits.
-/

namespace Opms.Soak

open Foundation

namespace Monitor

variable (m : Monitor)

/-! ## Limits -/

variable {m} {rounds before after history : List Round} {round : Round} {s : MonitorState}

/-! ## Samples -/

/-- A round without a verdict. -/
theorem verdict_eq_none (h : m.verdict history round = none) :
    m.goesOn round = true ∧ decisionLivenessBreach m round.now round.logs = none ∧
      (∀ samples, m.samples round = .ok samples →
        sampleBreach m samples (m.peak (history ++ [round])) = none) ∧
      (m.blind round = true →
        round.notedAt - (m.blindSince (history ++ [round])).getD round.notedAt < m.maxReadOutageS) := by
  unfold verdict at h
  split at h
  next =>
    split at h <;> cases h
  next hgoes =>
    split at h
    next => cases h
    next hlogs =>
      refine ⟨by simpa using hgoes, by simpa using hlogs, ?_⟩
      cases hread : m.samples round with
      | ok samples =>
          rw [hread] at h
          dsimp only at h
          split at h
          next => cases h
          next hbreach =>
            refine ⟨fun other hother => ?_, fun hblind => ?_⟩
            · obtain rfl := Except.ok.inj hother
              simpa using hbreach
            · rw [blind, equity?_of_samples hread] at hblind
              cases hblind
      | error message =>
          rw [hread] at h
          dsimp only at h
          split at h
          next => cases h
          next =>
            split at h
            next => cases h
            next houtage =>
              exact ⟨fun other hother => (by cases hother), fun _ => not_le.mp houtage⟩

theorem verdict_of_run (hrun : m.run rounds = .ok s) (hsplit : rounds = before ++ round :: after) :
    m.verdict before round = none := by
  have hnone := (run_refines m rounds).1
  rw [hrun] at hnone
  exact firstVerdict_eq_none_iff.mp hnone.symm before round after hsplit

/-- What the checks before the loop make sure of. -/
theorem start_spec {args : MonitorArgs} {environ : String → Option String}
    {deadlineNow startedAt : ℚ} (hstart : args.start environ deadlineNow startedAt = .ok m) :
    (∀ limitPct, m.maxDrawdownPct = some limitPct → 0 < limitPct ∧ limitPct ≤ 100) ∧
      0 < m.interval ∧ 0 < m.maxReadOutageS ∧ 0 < m.maxReadRetryDelayS ∧
      m.accounts.length = m.pids.length ∧ m.accounts.Nodup := by
  unfold MonitorArgs.start at hstart
  split at hstart
  next => cases hstart
  next hlimit =>
    split at hstart
    next => cases hstart
    next =>
      split at hstart
      next => cases hstart
      next hpositive =>
        split at hstart
        next => cases hstart
        next hlength =>
          split at hstart
          next => cases hstart
          next hdistinct =>
            split at hstart
            next => cases hstart
            next =>
              split at hstart
              next => cases hstart
              next =>
                split at hstart
                next => cases hstart
                next =>
                  obtain rfl := Except.ok.inj hstart
                  rw [not_le, lt_min_iff, lt_min_iff] at hpositive
                  refine ⟨fun limitPct hsome => ?_, hpositive.1.1, hpositive.1.2, hpositive.2,
                    not_not.mp hlength, not_not.mp hdistinct⟩
                  rw [hsome] at hlimit
                  simpa using hlimit

/-- One account and its process, on mainnet. -/
def soloArgs : MonitorArgs where
  pids := [7]
  duration := 60
  maxDrawdownPct := some 10

def soloMonitor : Monitor :=
  { soloArgs with labels := [], startedAt := 0, deadline := 150 }

theorem soloArgs_start : soloArgs.start (fun _ => some "false") 0 0 = .ok soloMonitor := by
  decide +kernel

/-- A round that finds the process alive and the account with this equity. -/
def soloRound (now equity : ℚ) : Round where
  alive := fun _ => true
  checkedAt := now
  now := now
  logs := fun _ => none
  reading := .ok {
    mids := Registry.empty
    account := fun _ => {
      balances := [("USDC", some equity)]
      tokenToAvailableAfterMaintenance := [(0, some 50)]
      assetPositions := []
      openOrders := [] } }
  notedAt := now

end Monitor

end Opms.Soak
