import Opms.ACSchedule.Tally

/-! # The pace of the slices

Submissions are an interval of the schedule in force apart, whatever fails in
between. The slice index is never below the number of tracked orders, so the
rewind after a failure takes back exactly one slice.
-/

namespace Opms.ACSchedule

open Foundation

universe u

variable {K : Type u} [Field K] [LinearOrder K]

namespace Executor

/-- What a control task does to the pace: nothing, a skipped final slice, or one
order under the interval of the resolved schedule. -/
inductive PaceStep (math : MathFunctions K) (cfg : Settings K) (call : Call K) (s : Executor K) :
    Executor K → Prop
  | idle (base : Executor K) (hbase : base = s ∨ base = s.resolved math cfg call)
      (startTimestamp : Option K) (status : RunnableStatus) (closeType : Option CloseType)
      (closeTimestamp : Option K) :
      PaceStep math cfg call s { base with startTimestamp, status, closeType, closeTimestamp }
  | skipped (startTimestamp : Option K)
      (hmore : (s.resolved math cfg call).sliceIdx < (s.resolved math cfg call).schedule.length) :
      PaceStep math cfg call s { s.resolved math cfg call with
        startTimestamp, sliceIdx := (s.resolved math cfg call).sliceIdx + 1 }
  | placed (startTimestamp : Option K) (amount : K)
      (hmore : (s.resolved math cfg call).sliceIdx < (s.resolved math cfg call).schedule.length)
      (hpace : (s.resolved math cfg call).paced call = false) :
      PaceStep math cfg call s
        ({ s.resolved math cfg call with startTimestamp }.placeSlice cfg call amount)

theorem controlTask_pace (math : MathFunctions K) (cfg : Settings K) (call : Call K)
    (s : Executor K) : PaceStep math cfg call s (s.controlTask math cfg call) := by
  unfold controlTask
  split
  next hrunning =>
    unfold tick
    dsimp only
    split
    next =>
      split
      next => exact .idle _ (.inr rfl) _ _ _ _
      next => exact .idle _ (.inr rfl) _ _ _ _
    next hmore =>
      split
      next => exact .idle _ (.inr rfl) _ _ _ _
      next hpace =>
        rcases submitNextSlice_cases cfg call { s.resolved math cfg call with
            startTimestamp := some ((s.resolved math cfg call).startTimestamp.getD call.now) }
            (not_le.mp hmore) with hskip | ⟨amount, hplace⟩
        · rw [hskip]
          exact .skipped _ (not_le.mp hmore)
        · rw [hplace]
          exact .placed _ _ (not_le.mp hmore) (Bool.not_eq_true _ |>.mp hpace)
  next hdown => exact .idle s (.inl rfl) s.startTimestamp _ _ _
  next => exact .idle s (.inl rfl) s.startTimestamp s.status s.closeType s.closeTimestamp

/-- The orders and the slice index agree, and nothing was submitted under a
schedule that may still be replaced. -/
structure Aligned (s : Executor K) : Prop where
  tracked : s.submitted.length ≤ s.sliceIdx
  within : s.sliceIdx ≤ s.schedule.length
  placed : (s.placed.map (·.orderId)).Perm ((s.submitted ++ s.failed).map (·.orderId))
  retries : s.currentRetries = s.failed.length
  fresh : s.scheduleResolved = false → s.sliceIdx = 0 ∧ s.lastSliceTimestamp = none

theorem resolved_scheduleResolved (math : MathFunctions K) (cfg : Settings K) (call : Call K)
    (s : Executor K) : (s.resolved math cfg call).scheduleResolved = true := by
  obtain ⟨schedule, intervalSeconds, hframe⟩ := s.maybeResolveVolumeSchedule_frame math cfg call
  rw [Executor.resolved, hframe]

/-- A schedule is resolved once. -/
theorem resolved_of_scheduleResolved (math : MathFunctions K) (cfg : Settings K) (call : Call K)
    {s : Executor K} (hresolved : s.scheduleResolved = true) : s.resolved math cfg call = s := by
  unfold Executor.resolved maybeResolveVolumeSchedule
  rw [if_pos hresolved]

theorem Aligned.resolved (math : MathFunctions K) (cfg : Settings K) (call : Call K)
    {s : Executor K} (h : Aligned s) : Aligned (s.resolved math cfg call) := by
  cases hresolved : s.scheduleResolved with
  | true =>
      rwa [resolved_of_scheduleResolved math cfg call hresolved]
  | false =>
      obtain ⟨schedule, intervalSeconds, hframe⟩ := s.maybeResolveVolumeSchedule_frame math cfg call
      rw [Executor.resolved, hframe]
      have hnone := h.fresh hresolved
      exact ⟨h.tracked, hnone.1 ▸ Nat.zero_le _, h.placed, h.retries, fun hfalse => by cases hfalse⟩

theorem Aligned.controlTask {math : MathFunctions K} {cfg : Settings K} {call : Call K}
    {s : Executor K} (h : Aligned s) : Aligned (s.controlTask math cfg call) := by
  have hresolved := h.resolved math cfg call
  have htrue := s.resolved_scheduleResolved math cfg call
  have hpace := s.controlTask_pace math cfg call
  generalize s.controlTask math cfg call = t at hpace ⊢
  cases hpace with
  | idle base hbase startTimestamp status closeType closeTimestamp =>
      rcases hbase with rfl | rfl
      · exact ⟨h.tracked, h.within, h.placed, h.retries, h.fresh⟩
      · exact ⟨hresolved.tracked, hresolved.within, hresolved.placed, hresolved.retries,
          hresolved.fresh⟩
  | skipped startTimestamp hmore =>
      refine ⟨hresolved.tracked.trans (Nat.le_succ _), hmore, hresolved.placed, hresolved.retries,
        fun hfalse => ?_⟩
      exact absurd (htrue.symm.trans hfalse) (by decide)
  | placed startTimestamp amount hmore hpace =>
      refine ⟨?_, hmore, ?_, hresolved.retries, fun hfalse => ?_⟩
      · simpa [placeSlice] using hresolved.tracked
      · have hplaced := hresolved.placed
        simp only [List.map_append] at hplaced
        simp only [placeSlice, List.map_append, List.map_cons, List.map_nil, List.append_assoc]
        refine (hplaced.append_right _).trans ?_
        rw [List.append_assoc]
        exact List.perm_append_comm.append_left _
      · exact absurd (htrue.symm.trans hfalse) (by decide)

omit [Field K] [LinearOrder K] in
/-- A failure moves the order it finds from the tracked to the failed ones. -/
theorem failed_of_tracked {s : Executor K} {orderId : OrderId}
    (htracked : orderId ∈ s.submitted.map (·.orderId)) :
    ∃ tracked rest, tracked.orderId = orderId ∧ (tracked :: rest).Perm s.submitted ∧
      s.processOrderFailedEvent orderId = { s with
        failed := s.failed ++ [tracked], submitted := rest, sliceIdx := s.sliceIdx - 1
        currentRetries := s.currentRetries + 1 } := by
  obtain ⟨t, ht, hid⟩ := List.mem_map.mp htracked
  obtain ⟨tracked, before, after, hbefore, hfound, hsplit, herase⟩ :=
    List.exists_of_eraseP (p := fun t : TrackedOrder K => t.orderId = orderId) ht
      (by simpa using hid)
  have hfind : s.findTracked orderId = some tracked := by
    rw [findTracked, hsplit, List.find?_append, List.find?_eq_none.mpr hbefore, Option.none_or]
    exact List.find?_cons_of_pos hfound
  refine ⟨tracked, before ++ after, of_decide_eq_true hfound, ?_, ?_⟩
  · rw [hsplit]
    exact List.perm_middle.symm
  · unfold processOrderFailedEvent
    rw [hfind]
    dsimp only
    rw [herase]

omit [Field K] [LinearOrder K] in
/-- Another order's failure is ignored. -/
theorem failed_of_untracked {s : Executor K} {orderId : OrderId}
    (huntracked : orderId ∉ s.submitted.map (·.orderId)) :
    s.processOrderFailedEvent orderId = s := by
  have hfind : s.findTracked orderId = none := by
    refine List.find?_eq_none.mpr fun t ht hid => huntracked ?_
    exact List.mem_map.mpr ⟨t, ht, by simpa using hid⟩
  unfold processOrderFailedEvent
  rw [hfind]

omit [Field K] [LinearOrder K] in
/-- A failure takes back the slice of the order it removes. -/
theorem Aligned.failed {s : Executor K} (h : Aligned s) (orderId : OrderId) :
    Aligned (s.processOrderFailedEvent orderId) := by
  by_cases htracked : orderId ∈ s.submitted.map (·.orderId)
  · obtain ⟨tracked, rest, _, hperm, hfailed⟩ := failed_of_tracked htracked
    have hlength := hperm.length_eq
    have hslices := h.tracked
    rw [hfailed]
    rw [List.length_cons] at hlength
    refine ⟨?_, (Nat.sub_le _ _).trans h.within, ?_, ?_, fun hfalse => ?_⟩
    · dsimp only
      omega
    · have hmoved : (s.submitted ++ s.failed).Perm (rest ++ (s.failed ++ [tracked])) := by
        rw [← List.append_assoc]
        exact (hperm.symm.append_right _).trans (List.perm_append_singleton _ _).symm
      exact h.placed.trans (hmoved.map _)
    · simp only [List.length_append, List.length_singleton, h.retries]
    · have hfresh := h.fresh hfalse
      exact ⟨by simp [hfresh.1], hfresh.2⟩
  · rwa [failed_of_untracked htracked]

end Executor

namespace World

variable (math : MathFunctions K) (cfg : Settings K)

theorem aligned_perform {w : World K} (h : w.executor.Aligned) (input : Input K) :
    (w.perform math cfg input).executor.Aligned := by
  cases input with
  | controlTask call => exact h.controlTask
  | execute orderId amount => exact h
  | settle orderId => exact h
  | observe orderId isDone executed =>
      have hids : ((w.executor.observe orderId isDone executed).submitted.map (·.orderId)) =
          w.executor.submitted.map (·.orderId) := by
        rw [Executor.observe, List.map_map]
        refine List.map_congr_left fun t _ => ?_
        dsimp only [Function.comp_apply]
        split <;> rfl
      refine ⟨?_, h.within, ?_, h.retries, h.fresh⟩
      · simpa [perform, Executor.observe] using h.tracked
      · have hplaced := h.placed
        rw [List.map_append] at hplaced ⊢
        rw [perform, hids]
        exact hplaced
  | completed orderId baseAssetAmount =>
      simp only [perform, Executor.processOrderCompletedEvent]
      split
      next => exact h
      next =>
        split
        next => exact ⟨h.tracked, h.within, h.placed, h.retries, h.fresh⟩
        next => exact ⟨h.tracked, h.within, h.placed, h.retries, h.fresh⟩
  | failed orderId => exact h.failed orderId
  | canceled orderId => exact h
  | earlyStop keepPosition => exact ⟨h.tracked, h.within, h.placed, h.retries, h.fresh⟩
  | evaluateMaxRetries now =>
      simp only [perform, Executor.evaluateMaxRetries]
      split
      next => exact ⟨h.tracked, h.within, h.placed, h.retries, h.fresh⟩
      next => exact h

/-- Only the failure of a tracked order takes a slice back, and takes back one, with
the order no longer tracked and one more retry counted. -/
def Rewinds (w next : World K) : Input K → Prop
  | .failed orderId =>
      if orderId ∈ w.executor.submitted.map (·.orderId) then
        next.executor.sliceIdx + 1 = w.executor.sliceIdx ∧
          (w.executor.submitted.map (·.orderId)).Perm
            (orderId :: next.executor.submitted.map (·.orderId)) ∧
          next.executor.currentRetries = w.executor.currentRetries + 1
      else next.executor = w.executor
  | _ => w.executor.sliceIdx ≤ next.executor.sliceIdx ∧
      next.executor.currentRetries = w.executor.currentRetries

theorem perform_rewinds {w : World K} (h : w.executor.Aligned) (input : Input K) :
    Rewinds w (w.perform math cfg input) input := by
  cases input with
  | controlTask call =>
      have hpace := w.executor.controlTask_pace math cfg call
      obtain ⟨hslice, hretries⟩ :
          w.executor.sliceIdx = (w.executor.resolved math cfg call).sliceIdx ∧
            (w.executor.resolved math cfg call).currentRetries = w.executor.currentRetries := by
        obtain ⟨_, _, hframe⟩ := w.executor.maybeResolveVolumeSchedule_frame math cfg call
        rw [Executor.resolved, hframe]
        exact ⟨rfl, rfl⟩
      dsimp only [Rewinds, perform]
      generalize w.executor.controlTask math cfg call = t at hpace ⊢
      cases hpace with
      | idle base hbase startTimestamp status closeType closeTimestamp =>
          rcases hbase with rfl | rfl
          · exact ⟨le_refl _, rfl⟩
          · exact ⟨hslice.le, hretries⟩
      | skipped startTimestamp hmore => exact ⟨hslice.le.trans (Nat.le_succ _), hretries⟩
      | placed startTimestamp amount hmore hpace =>
          exact ⟨hslice.le.trans (Nat.le_succ _), hretries⟩
  | execute orderId amount => exact ⟨le_refl _, rfl⟩
  | settle orderId => exact ⟨le_refl _, rfl⟩
  | observe orderId isDone executed => exact ⟨le_refl _, rfl⟩
  | completed orderId baseAssetAmount =>
      dsimp only [Rewinds, perform, Executor.processOrderCompletedEvent]
      split
      next => exact ⟨le_refl _, rfl⟩
      next => split <;> exact ⟨le_refl _, rfl⟩
  | failed orderId =>
      dsimp only [Rewinds, perform]
      split
      next htracked =>
        obtain ⟨tracked, rest, rfl, hperm, hfailed⟩ := Executor.failed_of_tracked htracked
        have hlength := hperm.length_eq
        have hslices := h.tracked
        rw [List.length_cons] at hlength
        rw [hfailed]
        refine ⟨?_, (hperm.map (·.orderId)).symm, rfl⟩
        dsimp only
        omega
      next huntracked => rw [Executor.failed_of_untracked huntracked]
  | canceled orderId => exact ⟨le_refl _, rfl⟩
  | earlyStop keepPosition => exact ⟨le_refl _, rfl⟩
  | evaluateMaxRetries now =>
      dsimp only [Rewinds, perform, Executor.evaluateMaxRetries]
      split <;> exact ⟨le_refl _, rfl⟩

/-- The times at which a step submits orders. -/
def submissionTimes (math : MathFunctions K) (cfg : Settings K) (w : World K) (input : Input K) :
    List K :=
  let next := w.perform math cfg input
  List.replicate (next.executor.placed.length - w.executor.placed.length) next.clock

/-- What a step does to the pace: no submission, or one that is an interval after
the last. -/
inductive Submits (w next : World K) : List K → Prop
  | none (hplaced : next.executor.placed.length = w.executor.placed.length)
      (hlast : next.executor.lastSliceTimestamp = w.executor.lastSliceTimestamp) :
      Submits w next []
  | one (now : K) (hplaced : next.executor.placed.length = w.executor.placed.length + 1)
      (hlast : next.executor.lastSliceTimestamp = some now)
      (hresolved : next.executor.scheduleResolved = true)
      (hpace : ∀ last, w.executor.lastSliceTimestamp = some last →
        next.executor.intervalSeconds ≤ now - last) :
      Submits w next [now]

/-- A step that places nothing leaves the last submission alone. -/
theorem Submits.of_idle {math : MathFunctions K} {cfg : Settings K} {w : World K} {input : Input K}
    (hplaced : (w.perform math cfg input).executor.placed = w.executor.placed)
    (hlast : (w.perform math cfg input).executor.lastSliceTimestamp =
      w.executor.lastSliceTimestamp) :
    Submits w (w.perform math cfg input) (submissionTimes math cfg w input) := by
  have hnone : submissionTimes math cfg w input = [] := by simp [submissionTimes, hplaced]
  rw [hnone]
  exact .none (by rw [hplaced]) hlast

theorem submits (w : World K) (input : Input K) :
    Submits w (w.perform math cfg input) (submissionTimes math cfg w input) := by
  cases input with
  | controlTask call =>
      have hpace := w.executor.controlTask_pace math cfg call
      have hlast : (w.executor.resolved math cfg call).lastSliceTimestamp =
          w.executor.lastSliceTimestamp := by
        obtain ⟨_, _, hframe⟩ := w.executor.maybeResolveVolumeSchedule_frame math cfg call
        rw [Executor.resolved, hframe]
      unfold submissionTimes
      dsimp only [perform]
      generalize w.executor.controlTask math cfg call = t at hpace ⊢
      cases hpace with
      | idle base hbase startTimestamp status closeType closeTimestamp =>
          rcases hbase with rfl | rfl
          · rw [Nat.sub_self]
            exact .none rfl rfl
          · rw [Executor.resolved_placed, Nat.sub_self]
            exact .none rfl hlast
      | skipped startTimestamp hmore =>
          dsimp only
          rw [Executor.resolved_placed, Nat.sub_self]
          exact .none rfl hlast
      | placed startTimestamp amount hmore hpace =>
          have hone : ({ w.executor.resolved math cfg call with startTimestamp }.placeSlice cfg call
              amount).placed.length = w.executor.placed.length + 1 := by
            simp [Executor.placeSlice]
          rw [hone, Nat.add_sub_cancel_left]
          refine .one call.now hone rfl
            (Executor.resolved_scheduleResolved math cfg call w.executor) fun last hsome => ?_
          rw [← hlast] at hsome
          have hnot : ¬ call.now - last < (w.executor.resolved math cfg call).intervalSeconds := by
            simpa [Executor.paced, hsome] using hpace
          exact not_lt.mp hnot
  | execute orderId amount => exact .of_idle rfl rfl
  | settle orderId => exact .of_idle rfl rfl
  | observe orderId isDone executed => exact .of_idle rfl rfl
  | completed orderId baseAssetAmount =>
      have hsame : (w.executor.processOrderCompletedEvent orderId baseAssetAmount).placed =
          w.executor.placed ∧
          (w.executor.processOrderCompletedEvent orderId baseAssetAmount).lastSliceTimestamp =
            w.executor.lastSliceTimestamp := by
        unfold Executor.processOrderCompletedEvent
        split
        next => exact ⟨rfl, rfl⟩
        next => dsimp only; split <;> exact ⟨rfl, rfl⟩
      exact .of_idle hsame.1 hsame.2
  | failed orderId =>
      rcases w.executor.processOrderFailedEvent_cases orderId with hsame | ⟨_, _, _, hsame⟩
      · exact .of_idle (by rw [perform, hsame]) (by rw [perform, hsame])
      · exact .of_idle (by rw [perform, hsame]) (by rw [perform, hsame])
  | canceled orderId => exact .of_idle rfl rfl
  | earlyStop keepPosition => exact .of_idle rfl rfl
  | evaluateMaxRetries now =>
      have hsame : (w.executor.evaluateMaxRetries cfg now).placed = w.executor.placed ∧
          (w.executor.evaluateMaxRetries cfg now).lastSliceTimestamp =
            w.executor.lastSliceTimestamp := by
        unfold Executor.evaluateMaxRetries
        split <;> exact ⟨rfl, rfl⟩
      exact .of_idle hsame.1 hsame.2

/-- The interval stands once the schedule is resolved. -/
theorem interval_perform {w : World K} (hresolved : w.executor.scheduleResolved = true)
    (input : Input K) :
    (w.perform math cfg input).executor.intervalSeconds = w.executor.intervalSeconds ∧
      (w.perform math cfg input).executor.scheduleResolved = true := by
  cases input with
  | controlTask call =>
      have hpace := w.executor.controlTask_pace math cfg call
      dsimp only [perform]
      generalize w.executor.controlTask math cfg call = t at hpace ⊢
      have hsame := Executor.resolved_of_scheduleResolved math cfg call hresolved
      cases hpace with
      | idle base hbase startTimestamp status closeType closeTimestamp =>
          rcases hbase with rfl | rfl
          · exact ⟨rfl, hresolved⟩
          · rw [hsame]
            exact ⟨rfl, hresolved⟩
      | skipped startTimestamp hmore =>
          rw [hsame]
          exact ⟨rfl, hresolved⟩
      | placed startTimestamp amount hmore hpace =>
          rw [hsame]
          exact ⟨rfl, hresolved⟩
  | execute orderId amount => exact ⟨rfl, hresolved⟩
  | settle orderId => exact ⟨rfl, hresolved⟩
  | observe orderId isDone executed => exact ⟨rfl, hresolved⟩
  | completed orderId baseAssetAmount =>
      simp only [perform, Executor.processOrderCompletedEvent]
      split
      next => exact ⟨rfl, hresolved⟩
      next => split <;> exact ⟨rfl, hresolved⟩
  | failed orderId =>
      rcases w.executor.processOrderFailedEvent_cases orderId with hsame | ⟨_, _, _, hsame⟩
      · rw [perform, hsame]
        exact ⟨rfl, hresolved⟩
      · rw [perform, hsame]
        exact ⟨rfl, hresolved⟩
  | canceled orderId => exact ⟨rfl, hresolved⟩
  | earlyStop keepPosition => exact ⟨rfl, hresolved⟩
  | evaluateMaxRetries now =>
      simp only [perform, Executor.evaluateMaxRetries]
      split <;> exact ⟨rfl, hresolved⟩

theorem interval_run {w : World K} (hresolved : w.executor.scheduleResolved = true)
    (inputs : List (Input K)) :
    (run (perform math cfg) w inputs).executor.intervalSeconds = w.executor.intervalSeconds :=
  (run_invariant_always (fun next : World K =>
    next.executor.intervalSeconds = w.executor.intervalSeconds ∧
      next.executor.scheduleResolved = true)
    (fun _ input h =>
      ⟨(interval_perform math cfg h.2 input).1.trans h.1, (interval_perform math cfg h.2 input).2⟩)
    ⟨rfl, hresolved⟩ inputs).1

/-- From any aligned world the submissions go on at the final interval. -/
theorem submissions_isChain {w : World K} (h : w.executor.Aligned) (inputs : List (Input K)) :
    (w.executor.lastSliceTimestamp.toList ++
      emitted (perform math cfg) (submissionTimes math cfg) w inputs).IsChain fun earlier later =>
        (run (perform math cfg) w inputs).executor.intervalSeconds ≤ later - earlier := by
  induction inputs generalizing w with
  | nil =>
      rw [emitted, List.append_nil]
      cases w.executor.lastSliceTimestamp with
      | none => exact .nil
      | some last => exact .singleton last
  | cons input rest ih =>
      have hrest := ih (aligned_perform math cfg h input)
      have hsubmits := submits math cfg w input
      rw [emitted_cons, run_cons]
      generalize submissionTimes math cfg w input = times at hsubmits
      cases hsubmits with
      | none hplaced hlast =>
          rw [hlast] at hrest
          exact hrest
      | one now hplaced hlast hresolved hpace =>
          rw [hlast] at hrest
          cases hbefore : w.executor.lastSliceTimestamp with
          | none => exact hrest
          | some last =>
              refine .cons_cons ?_ hrest
              rw [interval_run math cfg hresolved]
              exact hpace last hbefore

/-- Every order placed was submitted at one of the times. -/
theorem submissions_length (w : World K) (inputs : List (Input K)) :
    w.executor.placed.length +
        (emitted (perform math cfg) (submissionTimes math cfg) w inputs).length =
      (run (perform math cfg) w inputs).executor.placed.length := by
  induction inputs generalizing w with
  | nil => rfl
  | cons input rest ih =>
      have hsubmits := submits math cfg w input
      rw [emitted_cons, run_cons, ← ih, List.length_append]
      generalize submissionTimes math cfg w input = times at hsubmits
      cases hsubmits with
      | none hplaced hlast => rw [hplaced, List.length_nil, Nat.zero_add]
      | one now hplaced hlast hresolved hpace =>
          rw [hplaced, List.length_singleton, Nat.add_assoc]

theorem start_aligned {clock : K} {w : World K} (hstart : start math cfg clock = .ok w) :
    w.executor.Aligned ∧ w.executor.placed = [] ∧ w.executor.lastSliceTimestamp = none := by
  have hinit := (start_ok hstart).1
  unfold Executor.init at hinit
  split at hinit
  next => cases hinit
  next =>
    split at hinit
    next => cases hinit
    next =>
      split at hinit
      next => cases hinit
      next =>
        rw [← Except.ok.inj hinit]
        exact ⟨⟨Nat.zero_le _, Nat.zero_le _, .refl _, rfl, fun _ => ⟨rfl, rfl⟩⟩, rfl, rfl⟩

end World

/-- In every run, whatever fails, completes or is reported in between, two
consecutive slices are submitted at least the interval of the schedule in force
apart, and the failure of a tracked order, and no other step, rewinds exactly one
slice and counts one retry. The orders placed are the tracked ones and the failed
ones, of which there are as many as retries. -/
theorem slices_are_paced (math : MathFunctions K) (cfg : Settings K) {clock : K} {w : World K}
    (hstart : World.start math cfg clock = .ok w) (inputs : List (Input K)) :
    let final := (run (World.perform math cfg) w inputs).executor
    let times := emitted (World.perform math cfg) (World.submissionTimes math cfg) w inputs
    times.IsChain (fun earlier later => final.intervalSeconds ≤ later - earlier) ∧
      times.length = final.placed.length ∧
      Along (World.perform math cfg)
        (fun w input => World.Rewinds w (w.perform math cfg input) input) w inputs ∧
      final.submitted.length ≤ final.sliceIdx ∧ final.sliceIdx ≤ final.schedule.length ∧
      (final.placed.map (·.orderId)).Perm ((final.submitted ++ final.failed).map (·.orderId)) ∧
      final.failed.length = final.currentRetries := by
  intro final times
  obtain ⟨haligned, hplaced, hlast⟩ := World.start_aligned math cfg hstart
  have hkeep := fun (w : World K) input (h : w.executor.Aligned) =>
    World.aligned_perform math cfg h input
  have hfinal : final.Aligned :=
    run_invariant_always (fun w : World K => w.executor.Aligned) hkeep haligned inputs
  have hrewinds := Along.of_invariant (fun w : World K => w.executor.Aligned) hkeep
    (fun _ input h => World.perform_rewinds math cfg h input) haligned inputs
  have hchain := World.submissions_isChain math cfg haligned inputs
  have hlength := World.submissions_length math cfg w inputs
  rw [hlast] at hchain
  rw [hplaced, List.length_nil, Nat.zero_add] at hlength
  exact ⟨hchain, hlength, hrewinds, hfinal.tracked, hfinal.within, hfinal.placed,
    hfinal.retries.symm⟩

/-- The first order fails and its slice is submitted again. -/
def retriedRun : List (Input ℚ) :=
  [ .controlTask { now := 0, orderId := "first" }, .failed "first",
    .controlTask { now := 4, orderId := "early" },
    .controlTask { now := 10, orderId := "again" },
    .controlTask { now := 25, orderId := "last" } ]

theorem slices_are_paced_retriedRun :
    let final := (run (World.perform riskNeutralMath sampleConfig) sampleStart retriedRun).executor
    let times := emitted (World.perform riskNeutralMath sampleConfig)
      (World.submissionTimes riskNeutralMath sampleConfig) sampleStart retriedRun
    times = [0, 10, 25] ∧
      times.IsChain (fun earlier later => final.intervalSeconds ≤ later - earlier) ∧
      times.length = final.placed.length ∧
      Along (World.perform riskNeutralMath sampleConfig)
        (fun w input => World.Rewinds w (w.perform riskNeutralMath sampleConfig input) input)
        sampleStart retriedRun ∧
      final.submitted.length ≤ final.sliceIdx ∧ final.sliceIdx ≤ final.schedule.length ∧
      (final.placed.map (·.orderId)).Perm ((final.submitted ++ final.failed).map (·.orderId)) ∧
      final.failed.length = final.currentRetries :=
  ⟨by decide +kernel,
    slices_are_paced riskNeutralMath sampleConfig start_sampleConfig retriedRun⟩

end Opms.ACSchedule
