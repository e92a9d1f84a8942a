import Opms.ACSchedule.Forecast
import Opms.ACSchedule.Partition

/-! # The schedule in force

Cumulative volumes divided by their total rise from zero to one, so a volume
profile always leads to a schedule, and that schedule splits the order like the
clock-time one does. Both have at most as many slices as the config allows.
-/

namespace Opms.ACSchedule

universe u

section Field

variable {K : Type u} [Field K] [LinearOrder K] [IsStrictOrderedRing K]

/-! ## Fractions of a volume profile -/

theorem partialFractions_isChain {total cum : K} (htotal : 0 < total) (hcum : 0 ≤ cum)
    {volumes : List K} (hvolumes : ∀ volume ∈ volumes, 0 ≤ volume) :
    (cum / total :: Executor.partialFractions total cum volumes).IsChain
      fun x y => 0 ≤ x ∧ x ≤ y := by
  induction volumes generalizing cum with
  | nil => exact .singleton _
  | cons volume rest ih =>
      rw [List.forall_mem_cons] at hvolumes
      rw [Executor.partialFractions, List.isChain_cons_cons]
      refine ⟨⟨div_nonneg hcum htotal.le, ?_⟩, ih (add_nonneg hcum hvolumes.1) hvolumes.2⟩
      exact div_le_div_of_nonneg_right (le_add_of_nonneg_right hvolumes.1) htotal.le

theorem partialFractions_le {total : K} (htotal : 0 < total) (cum : K) {volumes : List K}
    (hvolumes : ∀ volume ∈ volumes, 0 ≤ volume) :
    ∀ v ∈ cum / total :: Executor.partialFractions total cum volumes,
      v ≤ (cum + volumes.sum) / total := by
  induction volumes generalizing cum with
  | nil => simp [Executor.partialFractions]
  | cons volume rest ih =>
      rw [List.forall_mem_cons] at hvolumes
      rw [Executor.partialFractions, List.forall_mem_cons, List.sum_cons, ← add_assoc]
      refine ⟨div_le_div_of_nonneg_right ?_ htotal.le, ih (cum + volume) hvolumes.2⟩
      rw [add_assoc]
      exact le_add_of_nonneg_right (add_nonneg hvolumes.1 (List.sum_nonneg hvolumes.2))

omit [LinearOrder K] [IsStrictOrderedRing K] in
theorem partialFractions_getLast (total cum : K) (volumes : List K) :
    (cum / total :: Executor.partialFractions total cum volumes).getLast (List.cons_ne_nil _ _) =
      (cum + volumes.sum) / total := by
  induction volumes generalizing cum with
  | nil => simp [Executor.partialFractions]
  | cons volume rest ih =>
      simp only [Executor.partialFractions, List.sum_cons, ← add_assoc]
      rw [List.getLast_cons (List.cons_ne_nil _ _)]
      exact ih (cum + volume)

omit [LinearOrder K] [IsStrictOrderedRing K] in
theorem length_partialFractions (total cum : K) (volumes : List K) :
    (Executor.partialFractions total cum volumes).length = volumes.length := by
  induction volumes generalizing cum with
  | nil => rfl
  | cons volume rest ih => rw [Executor.partialFractions, List.length_cons, ih, List.length_cons]

omit [LinearOrder K] [IsStrictOrderedRing K] in
/-- The last fraction is one before it is set to one. -/
theorem volumeFractions_eq {volumes : List K} (hsum : volumes.sum ≠ 0) :
    Executor.volumeFractions volumes =
      0 / volumes.sum :: Executor.partialFractions volumes.sum 0 volumes := by
  have hlast := partialFractions_getLast volumes.sum 0 volumes
  rw [zero_add, div_self hsum] at hlast
  simp only [zero_div] at hlast ⊢
  rw [Executor.volumeFractions, ← hlast]
  exact List.dropLast_append_getLast _

omit [LinearOrder K] [IsStrictOrderedRing K] in
theorem length_volumeFractions (volumes : List K) :
    (Executor.volumeFractions volumes).length = volumes.length + 1 := by
  simp [Executor.volumeFractions, length_partialFractions]

omit [IsStrictOrderedRing K] in
theorem not_decreasing_of_isChain {fractions : List K}
    (hchain : fractions.IsChain fun x y => 0 ≤ x ∧ x ≤ y) :
    decreasesSomewhere fractions = false := by
  induction hchain with
  | nil => rfl
  | singleton x => rfl
  | cons_cons hxy _ ih =>
      rw [decreasesSomewhere, ih, Bool.or_false, Bool.not_eq_false', decide_eq_true_iff]
      exact hxy

section Profile

variable {numBuckets : ℕ} {volumes : List K} (hprofile : IsVolumeProfile numBuckets volumes)

include hprofile

theorem IsVolumeProfile.isChain :
    (Executor.volumeFractions volumes).IsChain fun x y => 0 ≤ x ∧ x ≤ y := by
  rw [volumeFractions_eq hprofile.sum_pos.ne']
  exact partialFractions_isChain hprofile.sum_pos (le_refl 0) hprofile.nonneg

theorem IsVolumeProfile.le_one : ∀ v ∈ Executor.volumeFractions volumes, v ≤ 1 := by
  have hle := partialFractions_le hprofile.sum_pos 0 hprofile.nonneg
  rw [zero_add, div_self hprofile.sum_pos.ne'] at hle
  rwa [volumeFractions_eq hprofile.sum_pos.ne']

/-- The fractions of a volume profile pass the check of `build_schedule`. -/
theorem IsVolumeProfile.scheduleFractions (numIntervals : ℤ) :
    scheduleFractions numIntervals (some (Executor.volumeFractions volumes)) =
      .ok (Executor.volumeFractions volumes) := by
  have hlast : (Executor.volumeFractions volumes).getLast? = some 1 := List.getLast?_concat ..
  rw [ACSchedule.scheduleFractions, not_decreasing_of_isChain hprofile.isChain, hlast]
  refine (if_neg Bool.false_ne_true).trans (if_neg ?_)
  rw [gt_iff_lt, not_lt]
  exact le_add_of_nonneg_right (by positivity)

end Profile

/-! ## How many slices there are -/

omit [LinearOrder K] [IsStrictOrderedRing K] in
theorem length_sliceSizes (totalQuantity cumulative : K) (holdings : List K) :
    (sliceSizes totalQuantity cumulative holdings).length = holdings.length - 1 := by
  induction holdings generalizing cumulative with
  | nil => rfl
  | cons x rest ih =>
      cases rest with
      | nil => rfl
      | cons y rest =>
          cases rest with
          | nil => rfl
          | cons z rest =>
              rw [sliceSizes, List.length_cons, ih]
              simp

omit [IsStrictOrderedRing K] in
theorem length_mergeTail_le (state : List K × K) :
    (mergeTail state).length ≤ max 1 state.1.length := by
  unfold mergeTail
  split
  next =>
    split
    next last hlast =>
      rw [List.length_append, List.length_dropLast, List.length_singleton]
      have hsome := List.length_pos_of_mem (List.mem_of_getLast? hlast)
      omega
    next => exact le_max_left _ _
  next => exact le_max_right _ _

omit [IsStrictOrderedRing K] in
theorem length_foldl_mergeStep_le (minOrderSize : K) (sizes : List K) (state : List K × K) :
    (sizes.foldl (mergeStep minOrderSize) state).1.length ≤ state.1.length + sizes.length := by
  induction sizes generalizing state with
  | nil => exact le_refl _
  | cons size rest ih =>
      have hstep : (mergeStep minOrderSize state size).1.length ≤ state.1.length + 1 := by
        unfold mergeStep
        dsimp only
        split
        next => exact (List.length_append ..).le
        next => exact Nat.le_succ _
      rw [List.foldl_cons, List.length_cons]
      have hrest := ih (mergeStep minOrderSize state size)
      omega

omit [IsStrictOrderedRing K] in
theorem length_mergeMinSize_le (sizes : List K) (minOrderSize : Option K) :
    (mergeMinSize sizes minOrderSize).length ≤ sizes.length := by
  cases sizes with
  | nil => rw [mergeMinSize_nil]
  | cons size rest =>
      unfold mergeMinSize
      split
      next => exact le_refl _
      next m _ =>
        refine (length_mergeTail_le _).trans (max_le (Nat.succ_pos _) ?_)
        exact (length_foldl_mergeStep_le m _ _).trans_eq (zero_add _)

variable {math : MathFunctions K} {p : ScheduleParameters K}

omit [IsStrictOrderedRing K] in
theorem length_buildSchedule_le {cumulativeVolumeFractions : Option (List K)} {slices : List K}
    (hok : buildSchedule math p cumulativeVolumeFractions = .ok slices) {fractions : List K}
    (hfractions : scheduleFractions p.numIntervals cumulativeVolumeFractions = .ok fractions) :
    slices.length ≤ fractions.length - 1 := by
  obtain ⟨_, others, hothers, rfl⟩ := buildSchedule_eq_ok_iff.mp hok
  obtain rfl := Except.ok.inj (hfractions.symm.trans hothers)
  refine (length_mergeMinSize_le _ _).trans ?_
  rw [length_sliceSizes, holdings, List.length_map]

/-! ## Schedules for the whole order -/

/-- The schedule has between one slice and the configured number, splits the
order on one side, and leaves the minimum interval between slices. -/
structure Usable (cfg : Settings K) (s : Executor K) : Prop where
  nonempty : 1 ≤ s.schedule.length
  atMost : (s.schedule.length : ℤ) ≤ cfg.numIntervals
  nonneg : ∀ slice ∈ s.schedule, 0 ≤ slice
  sum : s.schedule.sum = cfg.totalAmountBase
  interval : s.intervalSeconds = cfg.durationSeconds / s.schedule.length
  paced : minAcIntervalS ≤ s.intervalSeconds

variable {cfg : Settings K}

omit [IsStrictOrderedRing K] in
theorem validateAcConfig_ok {config : ACScheduleExecutorConfig K}
    (hvalid : validateAcConfig config = .ok ()) :
    1 ≤ config.numIntervals ∧ 0 < config.durationSeconds ∧
      minAcIntervalS ≤ config.durationSeconds / config.numIntervals := by
  unfold validateAcConfig at hvalid
  split at hvalid
  next => cases hvalid
  next =>
    split at hvalid
    next => cases hvalid
    next hintervals =>
      split at hvalid
      next => cases hvalid
      next hduration =>
        split at hvalid
        next => cases hvalid
        next hpace =>
          exact ⟨(not_not.mp hintervals).1, not_not.mp hduration, not_lt.mp hpace⟩

omit [IsStrictOrderedRing K] in
theorem IsPartition.ne_nil {totalQuantity : K} {minOrderSize : Option K} {slices : List K}
    (hpartition : IsPartition totalQuantity minOrderSize slices) (htotal : 0 < totalQuantity) :
    slices ≠ [] := by
  rintro rfl
  exact htotal.ne hpartition.sum

theorem Usable.of_partition (hvalid : validateAcConfig cfg.toACScheduleExecutorConfig = .ok ())
    (htotal : 0 < cfg.totalAmountBase) {s : Executor K}
    (hpartition : IsPartition cfg.totalAmountBase cfg.minOrderSize s.schedule)
    (hatMost : (s.schedule.length : ℤ) ≤ cfg.numIntervals)
    (hinterval : s.intervalSeconds = cfg.durationSeconds / s.schedule.length) : Usable cfg s := by
  obtain ⟨-, hduration, hpace⟩ := validateAcConfig_ok hvalid
  have hnonempty := List.length_pos_of_ne_nil (hpartition.ne_nil htotal)
  refine ⟨hnonempty, hatMost, hpartition.nonneg, hpartition.sum, hinterval, ?_⟩
  rw [hinterval]
  have hcast : ((s.schedule.length : ℤ) : K) ≤ cfg.numIntervals := Int.cast_le.mpr hatMost
  rw [Int.cast_natCast] at hcast
  exact hpace.trans (div_le_div_of_nonneg_left hduration.le (Nat.cast_pos.mpr hnonempty) hcast)

variable (math cfg) in
/-- The schedule of the volume path, if it gets that far. -/
def volumeSchedule (volumes : Option (List K)) : Option (List K) :=
  volumes.bind fun volumes =>
    if volumes = [] ∨ volumes.sum ≤ 0 then
      none
    else
      (buildSchedule math cfg.scheduleParameters
        (some (Executor.volumeFractions volumes))).toOption.filter (· ≠ [])

omit [IsStrictOrderedRing K] in
/-- A failing volume path touches neither field, and one that succeeds sets both. -/
theorem maybeResolveVolumeSchedule_cases (call : Call K)
    (hbuilt : ∀ volumes ∈ call.volumes, ∀ schedule,
      buildSchedule math cfg.scheduleParameters (some (Executor.volumeFractions volumes)) =
        .ok schedule → schedule ≠ []) (s : Executor K) :
    ((s.maybeResolveVolumeSchedule math cfg call).schedule = s.schedule ∧
      (s.maybeResolveVolumeSchedule math cfg call).intervalSeconds = s.intervalSeconds) ∨
    ∃ schedule, volumeSchedule math cfg call.volumes = some schedule ∧
      (s.maybeResolveVolumeSchedule math cfg call).schedule = schedule ∧
      (s.maybeResolveVolumeSchedule math cfg call).intervalSeconds =
        cfg.durationSeconds / schedule.length := by
  unfold Executor.maybeResolveVolumeSchedule
  split
  next => exact .inl ⟨rfl, rfl⟩
  next =>
    dsimp only
    split
    next => exact .inl ⟨rfl, rfl⟩
    next volumes hvolumes =>
      split
      next => exact .inl ⟨rfl, rfl⟩
      next husable =>
        split
        next => exact .inl ⟨rfl, rfl⟩
        next schedule hschedule =>
          have hne := hbuilt volumes hvolumes schedule hschedule
          rw [if_neg hne]
          refine .inr ⟨schedule, ?_, rfl, rfl⟩
          rw [volumeSchedule, hvolumes, Option.bind_some, if_neg husable, hschedule]
          exact Option.filter_some_pos (by simpa using hne)

omit [IsStrictOrderedRing K] in
theorem volumeSchedule_eq_some {volumes : Option (List K)} {schedule : List K}
    (hsome : volumeSchedule math cfg volumes = some schedule) :
    ∃ profile ∈ volumes, buildSchedule math cfg.scheduleParameters
      (some (Executor.volumeFractions profile)) = .ok schedule := by
  obtain ⟨profile, hprofile, hsome⟩ := Option.bind_eq_some_iff.mp hsome
  refine ⟨profile, hprofile, ?_⟩
  split at hsome
  next => cases hsome
  next =>
    have hbuilt := (Option.filter_eq_some_iff.mp hsome).1
    cases hresult : buildSchedule math cfg.scheduleParameters
        (some (Executor.volumeFractions profile)) with
    | error error =>
        rw [hresult] at hbuilt
        cases hbuilt
    | ok other =>
        rw [hresult] at hbuilt
        rw [Option.some.inj hbuilt]

/-- A volume profile leads to a partition of the order. -/
theorem isPartition_of_profile (hmath : LawfulMath math) (htotal : 0 < p.totalQuantity)
    {numBuckets : ℕ} (hbuckets : 0 < numBuckets) {volumes slices : List K}
    (hprofile : IsVolumeProfile numBuckets volumes)
    (hok : buildSchedule math p (some (Executor.volumeFractions volumes)) = .ok slices) :
    IsPartition p.totalQuantity p.minOrderSize slices ∧ slices.length ≤ numBuckets := by
  have hlength := length_volumeFractions volumes
  rw [hprofile.length] at hlength
  constructor
  · refine (isPartition_iff_leavesRest hmath htotal hok).mpr ⟨by omega, ?_⟩
    exact splitOff_le hmath htotal.le hprofile.isChain fun v hv =>
      hprofile.le_one v (List.dropLast_subset _ hv)
  · have hle := length_buildSchedule_le hok (hprofile.scheduleFractions _)
    rwa [hlength, Nat.add_sub_cancel] at hle

omit [IsStrictOrderedRing K] in
theorem length_clockTime_le (hvalid : validateAcConfig cfg.toACScheduleExecutorConfig = .ok ())
    {clockTime : List K} (hbuilt : buildSchedule math cfg.scheduleParameters none = .ok clockTime) :
    (clockTime.length : ℤ) ≤ cfg.numIntervals := by
  have hle := length_buildSchedule_le hbuilt rfl
  have hpos := (validateAcConfig_ok hvalid).1
  rw [List.length_map, List.length_range] at hle
  have hsame : cfg.scheduleParameters.numIntervals = cfg.numIntervals := rfl
  omega

/-- The volume path replaces a usable schedule by a usable one, or leaves it. -/
theorem Usable.maybeResolveVolumeSchedule (hmath : LawfulMath math)
    (hvalid : validateAcConfig cfg.toACScheduleExecutorConfig = .ok ())
    (htotal : 0 < cfg.totalAmountBase) {s : Executor K} (hclock : Usable cfg s)
    (hpartition : IsPartition cfg.totalAmountBase cfg.minOrderSize s.schedule) (call : Call K)
    (hprofile : ∀ profile ∈ call.volumes, IsVolumeProfile s.schedule.length profile) :
    Usable cfg (s.maybeResolveVolumeSchedule math cfg call) ∧
      (volumeSchedule math cfg call.volumes = none →
        (s.maybeResolveVolumeSchedule math cfg call).schedule = s.schedule ∧
          (s.maybeResolveVolumeSchedule math cfg call).intervalSeconds = s.intervalSeconds) := by
  have hsplit : ∀ profile ∈ call.volumes, ∀ schedule,
      buildSchedule math cfg.scheduleParameters (some (Executor.volumeFractions profile)) =
        .ok schedule → IsPartition cfg.totalAmountBase cfg.minOrderSize schedule ∧
          schedule.length ≤ s.schedule.length := fun profile hmem schedule hok =>
    isPartition_of_profile hmath htotal hclock.nonempty (hprofile profile hmem) hok
  obtain ⟨hschedule, hinterval⟩ | ⟨schedule, hnew, hschedule, hinterval⟩ :=
    maybeResolveVolumeSchedule_cases call
      (fun profile hmem schedule hok => (hsplit profile hmem schedule hok).1.ne_nil htotal) s
  · refine ⟨.of_partition hvalid htotal ?_ ?_ ?_, fun _ => ⟨hschedule, hinterval⟩⟩
    · rwa [hschedule]
    · rw [hschedule]
      exact hclock.atMost
    · rw [hschedule, hinterval]
      exact hclock.interval
  · obtain ⟨profile, hmem, hok⟩ := volumeSchedule_eq_some hnew
    obtain ⟨hparts, hlength⟩ := hsplit profile hmem schedule hok
    refine ⟨.of_partition hvalid htotal ?_ ?_ ?_, fun hnone => ?_⟩
    · rwa [hschedule]
    · rw [hschedule]
      exact (Nat.cast_le.mpr hlength).trans hclock.atMost
    · rw [hschedule, hinterval]
    · rw [hnew] at hnone
      cases hnone

/-- Whatever becomes of the forecast, the schedule in force is usable, and the
clock-time one stays in force if the volume path fails. -/
theorem usable_maybeResolveVolumeSchedule [FloorRing K] (hmath : LawfulMath math)
    (hvalid : validateAcConfig cfg.toACScheduleExecutorConfig = .ok ())
    (htotal : 0 < cfg.totalAmountBase) {clockTime : List K}
    (hbuilt : buildSchedule math cfg.scheduleParameters none = .ok clockTime) :
    ∃ s, Executor.init math cfg = .ok s ∧ s.schedule = clockTime ∧
      s.intervalSeconds = cfg.durationSeconds / clockTime.length ∧
      ∀ (startTime : ℤ) (reply : Option (CandlesReply K)) (now : K) (orderId : OrderId),
        (∀ answer ∈ reply, answer.NonNegative) →
        let volumes := reply.bind (forecast startTime s.schedule.length s.intervalSeconds)
        let after := s.maybeResolveVolumeSchedule math cfg ⟨now, orderId, volumes⟩
        Usable cfg after ∧ (volumeSchedule math cfg volumes = none →
          after.schedule = s.schedule ∧ after.intervalSeconds = s.intervalSeconds) := by
  have hpartition : IsPartition cfg.totalAmountBase cfg.minOrderSize clockTime :=
    (isPartition_iff_leavesRest hmath htotal hbuilt).mpr trivial
  let start : Executor K :=
    { schedule := clockTime
      intervalSeconds := cfg.durationSeconds / clockTime.length
      scheduleResolved := !cfg.volumeForecast
      cumulativeFilled := 0 }
  have hinit : Executor.init math cfg = .ok start := by
    rw [Executor.init, hvalid, hbuilt]
    exact if_neg (hpartition.ne_nil htotal)
  have hclock : Usable cfg start :=
    .of_partition hvalid htotal hpartition (length_clockTime_le hvalid hbuilt) rfl
  refine ⟨start, hinit, rfl, rfl, fun startTime reply now orderId hreply => ?_⟩
  refine hclock.maybeResolveVolumeSchedule hmath hvalid htotal hpartition ⟨now, orderId, _⟩
    fun profile hmem => ?_
  obtain ⟨answer, hanswer, hforecast⟩ := Option.bind_eq_some_iff.mp hmem
  exact forecast_isVolumeProfile hclock.nonempty (one_pos.trans_le hclock.paced)
    (hreply answer hanswer) hforecast

end Field

/-! ## Real arithmetic -/

/-- In exact arithmetic the schedule in force is usable whatever the forecast
does, and a failing volume path leaves the clock-time one. -/
theorem schedule_in_force_usable (cfg : Settings ℝ)
    (hvalid : validateAcConfig cfg.toACScheduleExecutorConfig = .ok ()) (clockTime : List ℝ)
    (hbuilt : buildSchedule realMath cfg.scheduleParameters none = .ok clockTime)
    (htotal : 0 < cfg.totalAmountBase) :
    ∃ s, Executor.init realMath cfg = .ok s ∧ s.schedule = clockTime ∧
      s.intervalSeconds = cfg.durationSeconds / clockTime.length ∧
      ∀ (startTime : ℤ) (reply : Option (CandlesReply ℝ)) (now : ℝ) (orderId : OrderId),
        (∀ answer ∈ reply, answer.NonNegative) →
        let volumes := reply.bind (forecast startTime s.schedule.length s.intervalSeconds)
        let after := s.maybeResolveVolumeSchedule realMath cfg ⟨now, orderId, volumes⟩
        Usable cfg after ∧ (volumeSchedule realMath cfg volumes = none →
          after.schedule = s.schedule ∧ after.intervalSeconds = s.intervalSeconds) :=
  usable_maybeResolveVolumeSchedule lawful_realMath hvalid htotal hbuilt

/-- Two slices without risk aversion, on a volume forecast. -/
noncomputable def sampleSettings : Settings ℝ where
  connectorName := "hyperliquid_perpetual"
  tradingPair := "ETH-USD"
  side := .buy
  totalAmountBase := sampleParameters.totalQuantity
  durationSeconds := sampleParameters.durationSeconds
  numIntervals := sampleParameters.numIntervals
  riskAversion := sampleParameters.riskAversion
  volatility := sampleParameters.volatility
  eta := sampleParameters.eta
  gamma := sampleParameters.gamma
  minOrderSize := sampleParameters.minOrderSize
  volumeForecast := true
  positionAction := .open

/-- One hourly candle with some volume gives a usable schedule. -/
theorem one_candle_usable : ∃ s, Executor.init realMath sampleSettings = .ok s ∧
    Usable sampleSettings (s.maybeResolveVolumeSchedule realMath sampleSettings ⟨0, "order",
      forecast 0 s.schedule.length s.intervalSeconds
        (.candles [⟨some (0, 3600000), some 5⟩])⟩) := by
  obtain ⟨s, hinit, _, _, hafter⟩ := schedule_in_force_usable sampleSettings
    (by norm_num [validateAcConfig, sampleSettings, sampleParameters, maxAcIntervals,
      minAcIntervalS]) [1 / 2, 1 / 2] sampleParameters_schedule
    (by norm_num [sampleSettings, sampleParameters])
  refine ⟨s, hinit, (hafter 0 (some (.candles [⟨some (0, 3600000), some 5⟩])) 0 "order" ?_).1⟩
  intro answer hanswer
  obtain rfl := Option.some.inj hanswer
  simp [CandlesReply.NonNegative, getCandles]

end Opms.ACSchedule
