import Opms.Soak.Watched

/-! # Outages

The monitor sleeps between its rounds, so what it tolerates is bounded in time:
it cannot be without a sample for long, and the retry delay cannot overflow
before the outage limit stops the processes.
-/

namespace Opms.Soak

open Foundation

namespace Monitor

variable (m : Monitor)

/-- The sleep after the last of the rounds. -/
def pauseAfter (history : List Round) : Option ℚ :=
  match m.run history with
  | .ok s => s.slept.getLast?
  | .error _ => none

/-- A round notes its reading at most `latency` after the sleep before it, and
the first one after the start. -/
structure Prompt (latency : ℚ) (rounds : List Round) : Prop where
  first : ∀ round ∈ rounds.head?, round.notedAt ≤ m.startedAt + latency
  next : ∀ before round next after, rounds = before ++ round :: next :: after →
    ∀ pause, m.pauseAfter (before ++ [round]) = some pause →
      next.notedAt ≤ round.notedAt + pause + latency

/-- When the last sample was noted, or when the monitor started. -/
def sampledAt (rounds : List Round) : ℚ :=
  ((rounds.filter fun round => !m.blind round).getLast?.map Round.notedAt).getD m.startedAt

/-- A sleep lasts as long as it was asked for. -/
def Waits (rounds : List Round) : Prop :=
  ∀ before round next after, rounds = before ++ round :: next :: after →
    ∀ pause, m.pauseAfter (before ++ [round]) = some pause →
      round.notedAt + pause ≤ next.notedAt

variable {m} {rounds before after history : List Round} {round : Round} {s : MonitorState}

theorem readErrorDelayS_bounds {consecutive : ℕ} {intervalS maxDelayS delay : ℚ}
    (hinterval : 0 < intervalS) (h : readErrorDelayS consecutive intervalS maxDelayS = some delay) :
    min intervalS maxDelayS ≤ delay ∧ delay ≤ maxDelayS := by
  unfold readErrorDelayS floatTimesPow at h
  split at h
  next =>
    obtain rfl := Option.some.inj h
    have hpow : (1 : ℚ) ≤ 2 ^ (consecutive - 1) := one_le_pow₀ (by norm_num)
    refine ⟨min_le_min_right _ ?_, min_le_right _ _⟩
    exact le_mul_of_one_le_right hinterval.le hpow
  next => cases h

theorem round_slept {next : MonitorState} (hnext : m.round s round = .ok next) :
    ∃ pause, next.slept = s.slept ++ [pause] ∧ (m.blind round = false → pause = m.interval) ∧
      (m.blind round = true → ∃ consecutive,
        readErrorDelayS consecutive m.interval m.maxReadRetryDelayS = some pause) := by
  unfold Monitor.round at hnext
  split at hnext
  next => cases hnext
  next =>
    split at hnext
    next => cases hnext
    next =>
      split at hnext
      next samples hread =>
        unfold noteSamples at hnext
        dsimp only at hnext
        split at hnext
        next => cases hnext
        next =>
          obtain rfl := Except.ok.inj hnext
          refine ⟨m.interval, rfl, fun _ => rfl, fun hblind => ?_⟩
          rw [blind, equity?_of_samples hread] at hblind
          cases hblind
      next message hread =>
        unfold noteError at hnext
        dsimp only at hnext
        split at hnext
        next => cases hnext
        next delay hdelay =>
          split at hnext
          next => cases hnext
          next =>
            obtain rfl := Except.ok.inj hnext
            refine ⟨delay, rfl, fun hblind => ?_, fun _ => ⟨_, hdelay⟩⟩
            rw [blind, equity?_of_error hread] at hblind
            cases hblind

theorem pauseAfter_spec (hinterval : 0 < m.interval) (hrun : m.run (history ++ [round]) = .ok s) :
    ∃ pause, m.pauseAfter (history ++ [round]) = some pause ∧
      (m.blind round = false → pause = m.interval) ∧
      (m.blind round = true →
        min m.interval m.maxReadRetryDelayS ≤ pause ∧ pause ≤ m.maxReadRetryDelayS) := by
  obtain ⟨before, hbefore, hround⟩ := loop_prefix hrun
  rw [loop_singleton] at hround
  obtain ⟨pause, hslept, hsampled, hblind⟩ := round_slept hround
  refine ⟨pause, ?_, hsampled, fun hround => ?_⟩
  · rw [pauseAfter, hrun]
    dsimp only
    rw [hslept, List.getLast?_concat]
  · obtain ⟨consecutive, hdelay⟩ := hblind hround
    exact readErrorDelayS_bounds hinterval hdelay

theorem run_prefix (hrun : m.run (before ++ after) = .ok s) :
    ∃ next, m.run before = .ok next := by
  obtain ⟨next, hnext, _⟩ := loop_prefix hrun
  exact ⟨next, hnext⟩

theorem sampledAt_concat_blind (hblind : m.blind round = true) (history : List Round) :
    m.sampledAt (history ++ [round]) = m.sampledAt history := by
  simp [sampledAt, hblind]

theorem sampledAt_concat_sample (hblind : m.blind round = false) (history : List Round) :
    m.sampledAt (history ++ [round]) = round.notedAt := by
  simp [sampledAt, hblind]

theorem Prompt.of_append {latency : ℚ} (h : m.Prompt latency (before ++ after)) :
    m.Prompt latency before := by
  refine ⟨fun round hround => h.first round ?_, fun earlier round next later hsplit => ?_⟩
  · rw [List.head?_append, Option.mem_def.mp hround]
    rfl
  · exact h.next earlier round next (later ++ after) (by rw [hsplit]; simp)

/-- The consecutive rounds of a run of three. -/
theorem forall_consecutive {first second third : Round}
    {property : List Round → Round → Round → Prop} (hfirst : property [] first second)
    (hsecond : property [first] second third) :
    ∀ before round next after, [first, second, third] = before ++ round :: next :: after →
      property before round next := by
  intro before round next after hsplit
  rcases before with _ | ⟨one, _ | ⟨two, rest⟩⟩
  · obtain ⟨rfl, rfl, _⟩ : first = round ∧ second = next ∧ _ := by simpa using hsplit
    exact hfirst
  · obtain ⟨rfl, rfl, rfl, _⟩ : first = one ∧ second = round ∧ third = next ∧ _ := by
      simpa using hsplit
    exact hsecond
  · obtain ⟨_, _, hrest⟩ : first = one ∧ second = two ∧
        [third] = rest ++ round :: next :: after := by
      simpa using hsplit
    have hlength := congrArg List.length hrest
    simp only [List.length_append, List.length_cons, List.length_nil] at hlength
    omega

section Blind

variable {latency : ℚ} {last : Round}

/-- Where the last reading succeeded, or there was none, the next comes within an
interval. -/
theorem notedAt_le_of_sampled (hinterval : 0 < m.interval) (hrun : m.run history = .ok s)
    (hprompt : m.Prompt latency (history ++ [round])) (hsampled : m.blindSince history = none) :
    round.notedAt ≤ m.sampledAt history + m.interval + latency := by
  cases history using List.reverseRecOn with
  | nil =>
      have hfirst := hprompt.first round rfl
      have hstart : m.sampledAt [] = m.startedAt := rfl
      linarith
  | append_singleton history previous _ =>
      cases hblind : m.blind previous with
      | true =>
          rw [blindSince_concat_blind hblind] at hsampled
          cases hsampled
      | false =>
          obtain ⟨pause, hpause, hinterval, _⟩ := pauseAfter_spec hinterval hrun
          obtain rfl := hinterval hblind
          rw [sampledAt_concat_sample hblind]
          exact hprompt.next history previous round [] (by simp) _ hpause

/-- A spell of errors begins within an interval of the last sample. -/
theorem blindSince_le (hinterval : 0 < m.interval) (hrun : m.run history = .ok s)
    (hprompt : m.Prompt latency history) {since : ℚ} (hsince : m.blindSince history = some since) :
    since ≤ m.sampledAt history + m.interval + latency := by
  induction history using List.reverseRecOn generalizing s since with
  | nil => cases hsince
  | append_singleton history round ih =>
      obtain ⟨earlier, hearlier⟩ := run_prefix hrun
      cases hblind : m.blind round with
      | false =>
          rw [blindSince, spell_concat_sample hblind] at hsince
          cases hsince
      | true =>
          rw [blindSince_concat_blind hblind] at hsince
          rw [sampledAt_concat_blind hblind]
          cases hbefore : m.blindSince history with
          | some first =>
              rw [hbefore] at hsince
              obtain rfl := Option.some.inj hsince
              exact ih hearlier hprompt.of_append hbefore
          | none =>
              rw [hbefore] at hsince
              obtain rfl := Option.some.inj hsince
              exact notedAt_le_of_sampled hinterval hearlier hprompt hbefore

/-- The monitor is never without a sample for longer than the interval, the
tolerated outage and the longest retry delay, each read being at most `latency`
late, counted from its start where nothing has been sampled yet: `last` is any
round it gets to. -/
theorem blind_time_bounded {args : MonitorArgs} {environ : String → Option String}
    {deadlineNow startedAt : ℚ} (hstart : args.start environ deadlineNow startedAt = .ok m)
    (hlatency : 0 ≤ latency) (hrun : m.run rounds = .ok s)
    (hprompt : m.Prompt latency (rounds ++ [last])) :
    last.notedAt ≤ m.sampledAt rounds + m.interval + m.maxReadOutageS + m.maxReadRetryDelayS +
      2 * latency := by
  obtain ⟨_, hinterval, houtage, hretry, _⟩ := start_spec hstart
  cases hsince : m.blindSince rounds with
  | none =>
      have hlast := notedAt_le_of_sampled hinterval hrun hprompt hsince
      linarith
  | some since =>
      have hfirst := blindSince_le hinterval hrun hprompt.of_append hsince
      cases rounds using List.reverseRecOn with
      | nil => cases hsince
      | append_singleton rounds final _ =>
          cases hblind : m.blind final with
          | false =>
              rw [blindSince, spell_concat_sample hblind] at hsince
              cases hsince
          | true =>
              -- the last error was let pass, so the outage was still tolerated
              obtain ⟨_, _, _, hpassed⟩ := verdict_eq_none (verdict_of_run hrun rfl)
              have hfinal := hpassed hblind
              rw [hsince, Option.getD_some] at hfinal
              obtain ⟨delay, hdelay, _, hbounds⟩ := pauseAfter_spec hinterval hrun
              have hlast := hprompt.next rounds final last [] (by simp) _ hdelay
              have hretry := (hbounds hblind).2
              linarith

end Blind

/-- A round that cannot read the accounts. -/
def deafRound (now : ℚ) : Round :=
  { soloRound now 0 with reading := .error "ConnectionError: refused" }

/-- No read succeeds before the third round. -/
def deafStart : List Round := [deafRound 1, deafRound 12]

theorem deafStart_prompt : soloMonitor.Prompt 2 (deafStart ++ [soloRound 34 100]) := by
  refine ⟨fun round hround => ?_, forall_consecutive (fun pause hpause => ?_)
    (fun pause hpause => ?_)⟩
  · obtain rfl : deafRound 1 = round := by simpa [deafStart] using hround
    decide +kernel
  · have hten : soloMonitor.pauseAfter ([] ++ [deafRound 1]) = some 10 := by decide +kernel
    obtain rfl := Option.some.inj (hten.symm.trans hpause)
    decide +kernel
  · have htwenty : soloMonitor.pauseAfter ([deafRound 1] ++ [deafRound 12]) = some 20 := by
      decide +kernel
    obtain rfl := Option.some.inj (htwenty.symm.trans hpause)
    decide +kernel

theorem blind_time_bounded_deafStart : soloMonitor.sampledAt deafStart = 0 ∧
    (soloRound 34 100).notedAt ≤ soloMonitor.sampledAt deafStart + 10 + 45 + 20 + 2 * 2 := by
  obtain ⟨s, hrun⟩ := exists_ok_of_isOk
    (show (soloMonitor.run deafStart).isOk = true by decide +kernel)
  exact ⟨by decide +kernel,
    blind_time_bounded soloArgs_start (by norm_num) hrun deafStart_prompt⟩

/-! ## Ends -/

theorem verdict_eq_some {kind : ExitKind} {signalled : List ℕ}
    (h : m.verdict history round = some (kind, signalled)) :
    (kind = .returned 1 ∧ signalled = m.pids) ∨
      (kind = .returned 0 ∧ signalled = [] ∧ m.goesOn round = false ∧
        ¬ (m.deadline ≤ round.endedAt ∧ m.pids.any round.aliveAfter = true)) ∨
      (kind = .raised ∧ m.blind round = true ∧
        1024 < (m.spell (history ++ [round])).length) := by
  unfold verdict at h
  split at h
  next hgoes =>
    split at h
    next =>
      obtain ⟨rfl, rfl⟩ := Prod.mk.inj (Option.some.inj h)
      exact .inl ⟨rfl, rfl⟩
    next hover =>
      obtain ⟨rfl, rfl⟩ := Prod.mk.inj (Option.some.inj h)
      exact .inr (.inl ⟨rfl, rfl, by simpa using hgoes, hover⟩)
  next =>
    split at h
    next =>
      obtain ⟨rfl, rfl⟩ := Prod.mk.inj (Option.some.inj h)
      exact .inl ⟨rfl, rfl⟩
    next =>
      cases hread : m.samples round with
      | ok samples =>
          rw [hread] at h
          dsimp only at h
          split at h
          next =>
            obtain ⟨rfl, rfl⟩ := Prod.mk.inj (Option.some.inj h)
            exact .inl ⟨rfl, rfl⟩
          next => cases h
      | error message =>
          rw [hread] at h
          dsimp only at h
          split at h
          next hmany =>
            obtain ⟨rfl, rfl⟩ := Prod.mk.inj (Option.some.inj h)
            refine .inr (.inr ⟨rfl, ?_, hmany⟩)
            rw [blind, equity?_of_error hread]
            rfl
          next =>
            split at h
            next =>
              obtain ⟨rfl, rfl⟩ := Prod.mk.inj (Option.some.inj h)
              exact .inl ⟨rfl, rfl⟩
            next => cases h

/-- Each error of a spell comes at least the shortest sleep after the one before. -/
theorem spell_lasts (hinterval : 0 < m.interval) (hwaits : m.Waits rounds)
    (hsplit : rounds = history ++ round :: after) (hrun : m.run (history ++ [round]) = .ok s)
    (hblind : m.blind round = true) :
    ((m.spell history).length : ℚ) * min m.interval m.maxReadRetryDelayS ≤
      round.notedAt - (m.blindSince (history ++ [round])).getD round.notedAt := by
  induction history using List.reverseRecOn generalizing round after s with
  | nil =>
      rw [blindSince_concat_blind hblind]
      simp [spell, blindSince]
  | append_singleton history previous ih =>
      rw [blindSince_concat_blind hblind, Option.getD_some]
      cases hprevious : m.blind previous with
      | false => simp [blindSince, spell_concat_sample hprevious]
      | true =>
          obtain ⟨earlier, hearlier⟩ := run_prefix hrun
          obtain ⟨pause, hpause, _, hbounds⟩ := pauseAfter_spec hinterval hearlier
          have hsplit : rounds = history ++ previous :: round :: after := by
            rw [hsplit, List.append_assoc, List.singleton_append]
          have hnext := hwaits history previous round after hsplit pause hpause
          have hspell := ih hsplit hearlier hprevious
          rw [blindSince_concat_blind hprevious, Option.getD_some] at hspell ⊢
          rw [spell_concat_blind hprevious, List.length_append, List.length_singleton]
          push_cast
          linarith [(hbounds hprevious).1]

theorem accounts_ne_nil (args : MonitorArgs) : args.accounts ≠ [] := by
  unfold MonitorArgs.accounts
  split
  next => exact List.cons_ne_nil _ _
  next hsome => exact hsome

/-- Where the outage limit is shorter than 1023 of the shortest sleeps, the
monitor never ends by an exception, so it ends with every process signalled and
the exit code 1, unless it finds one of them gone. -/
theorem monitor_ends_safely {args : MonitorArgs} {environ : String → Option String}
    {deadlineNow startedAt : ℚ} (hstart : args.start environ deadlineNow startedAt = .ok m)
    (houtage : m.maxReadOutageS ≤ 1023 * min m.interval m.maxReadRetryDelayS)
    (hwaits : m.Waits rounds) (hclock : ∀ round ∈ rounds, round.checkedAt ≤ round.endedAt)
    {exit : Exit} (hexit : m.run rounds = .error exit) :
    (exit.kind = .returned 1 ∧ exit.signalled = m.pids) ∨
      (exit.kind = .returned 0 ∧ exit.signalled = [] ∧ ∃ round ∈ rounds, ∃ pid ∈ m.pids,
        round.alive pid = false ∨ round.aliveAfter pid = false) := by
  obtain ⟨_, hinterval, _, _, hlength, _⟩ := start_spec hstart
  obtain ⟨before, round, after, next, rfl, hbefore, hround⟩ := loop_stops hexit
  have hcounts := (run_refines m before).2 next hbefore
  have hverdict := (round_verdict before next round hcounts).1
  rw [hround] at hverdict
  rcases verdict_eq_some hverdict.symm with hsignalled | ⟨hkind, hnone, hgoes, hover⟩ |
    ⟨_, hblind, hmany⟩
  · exact .inl hsignalled
  · refine .inr ⟨hkind, hnone, round, by simp, ?_⟩
    by_contra hall
    push Not at hall
    have halive : ∀ pid ∈ m.pids, round.alive pid = true := fun pid hmem => by
      simpa using (hall pid hmem).1
    have hlate : m.deadline ≤ round.checkedAt := by
      simpa [goesOn, List.all_eq_true.mpr halive] using hgoes
    obtain ⟨pid, hpid⟩ : ∃ pid, pid ∈ m.pids := by
      refine List.exists_mem_of_length_pos ?_
      rw [← hlength]
      exact List.length_pos_iff.mpr (accounts_ne_nil _)
    refine hover ⟨hlate.trans (hclock round (by simp)), List.any_eq_true.mpr ⟨pid, hpid, ?_⟩⟩
    simpa using (hall pid hpid).2
  · -- the 1024th error in a row has been let pass, so the outage was still short
    exfalso
    rw [spell_concat_blind hblind, List.length_append, List.length_singleton] at hmany
    cases before using List.reverseRecOn with
    | nil => simp [spell] at hmany
    | append_singleton before previous _ =>
        cases hprevious : m.blind previous with
        | false =>
            rw [spell_concat_sample hprevious] at hmany
            simp at hmany
        | true =>
            have hsplit : before ++ [previous] ++ round :: after =
                before ++ previous :: round :: after := by simp
            have hlasts := spell_lasts hinterval hwaits hsplit hbefore hprevious
            obtain ⟨_, _, _, hpassed⟩ := verdict_eq_none (verdict_of_run hbefore rfl)
            have hshort := hpassed hprevious
            rw [spell_concat_blind hprevious, List.length_append, List.length_singleton] at hmany
            have hcount : (1023 : ℚ) ≤ ((m.spell before).length : ℚ) := by
              exact_mod_cast (by omega : 1023 ≤ (m.spell before).length)
            have hpositive : 0 ≤ min m.interval m.maxReadRetryDelayS :=
              le_min hinterval.le (start_spec hstart).2.2.2.1.le
            have hmany := mul_le_mul_of_nonneg_right hcount hpositive
            linarith

/-- Two errors, then an account without equity. -/
def lostRounds : List Round := [deafRound 0, deafRound 10, soloRound 30 0]

theorem lostRounds_waits : soloMonitor.Waits lostRounds := by
  refine forall_consecutive (fun pause hpause => ?_) (fun pause hpause => ?_)
  · have hten : soloMonitor.pauseAfter ([] ++ [deafRound 0]) = some 10 := by decide +kernel
    obtain rfl := Option.some.inj (hten.symm.trans hpause)
    decide +kernel
  · have htwenty : soloMonitor.pauseAfter ([deafRound 0] ++ [deafRound 10]) = some 20 := by
      decide +kernel
    obtain rfl := Option.some.inj (htwenty.symm.trans hpause)
    decide +kernel

theorem monitor_ends_safely_lostRounds : ∃ exit, soloMonitor.run lostRounds = .error exit ∧
    ((exit.kind = .returned 1 ∧ exit.signalled = [7]) ∨
      (exit.kind = .returned 0 ∧ exit.signalled = [] ∧ ∃ round ∈ lostRounds, ∃ pid ∈ [7],
        round.alive pid = false ∨ round.aliveAfter pid = false)) := by
  cases hrun : soloMonitor.run lostRounds with
  | ok s =>
      have hstopped : (soloMonitor.run lostRounds).isOk = false := by decide +kernel
      rw [hrun] at hstopped
      cases hstopped
  | error exit =>
      refine ⟨exit, rfl, monitor_ends_safely soloArgs_start (by decide +kernel) lostRounds_waits
        (fun round hmem => ?_) hrun⟩
      simp only [lostRounds, List.mem_cons, List.not_mem_nil, or_false] at hmem
      rcases hmem with rfl | rfl | rfl <;> exact le_rfl

end Monitor

end Opms.Soak
