import Opms.ACSchedule.Executor
import Mathlib.Algebra.BigOperators.Group.List.Basic
import Mathlib.Algebra.Order.BigOperators.Group.List
import Mathlib.Algebra.Order.Floor.Ring
import Mathlib.Data.List.FinRange
import Mathlib.Tactic.Positivity

/-! # The volume forecast

The forecaster averages the volume per second of each hour of the day over the
connector's candles and reads the average off at the middle of each bucket. It
falls back to a uniform profile, so it answers with positive total volume unless
a candle is malformed.
-/

namespace Opms.ACSchedule

universe u

/-- A candle as the forecaster reads it. -/
structure Candle (K : Type u) where
  /-- `open_time` and `close_time`, where both are integers. -/
  times : Option (ℤ × ℤ)
  /-- `volume`, where it is a number. -/
  volume : Option K

/-- What the connector does when it is asked for candles. -/
inductive CandlesReply (K : Type u)
  | noEndpoint
  | raised
  | candles (reply : List (Candle K))

/-- `HBCandlesProvider.get_candles`. -/
def getCandles {K : Type u} : CandlesReply K → List (Candle K)
  | .noEndpoint => []
  | .raised => []
  | .candles reply => reply

def msPerHour : ℤ := 3600000

/-- The hour of the day of a time in milliseconds. -/
def hourOf (ms : ℤ) : Fin 24 := ⟨(ms / msPerHour % 24).toNat, by omega⟩

/-- The volumes per second by hour of the day, summed, and how many there are. -/
structure HourlyRates (K : Type u) where
  rateSums : Fin 24 → K
  rateCounts : Fin 24 → ℕ

section

variable {K : Type u} [Field K] [LinearOrder K]

/-- Count a candle in; one without a duration is skipped, a malformed one raises. -/
def HourlyRates.addCandle (rates : HourlyRates K) (candle : Candle K) : Option (HourlyRates K) :=
  candle.times.bind fun (openTime, closeTime) =>
    let durationS : K := ((closeTime - openTime : ℤ) : K) / 1000
    if durationS ≤ 0 then
      some rates
    else
      candle.volume.map fun volume =>
        let hour := hourOf openTime
        { rateSums := Function.update rates.rateSums hour
            (rates.rateSums hour + volume / durationS)
          rateCounts := Function.update rates.rateCounts hour (rates.rateCounts hour + 1) }

omit [LinearOrder K] in
def HourlyRates.rate (rates : HourlyRates K) (hour : Fin 24) : K :=
  rates.rateSums hour / rates.rateCounts hour

omit [LinearOrder K] in
/-- The rates of the hours that have candles. -/
def HourlyRates.populated (rates : HourlyRates K) : List K :=
  ((List.finRange 24).filter fun hour => rates.rateCounts hour ≠ 0).map rates.rate

/-- The rate of every hour, or `some none` without usable candles, or `none` when
a candle raises. -/
def buildHourlyRateProfile (candles : List (Candle K)) : Option (Option (Fin 24 → K)) :=
  if candles.isEmpty then
    some none
  else
    (candles.foldlM HourlyRates.addCandle ⟨fun _ => 0, fun _ => 0⟩).map fun rates =>
      let populated := rates.populated
      if populated.isEmpty then
        none
      else
        let globalMean := populated.sum / populated.length
        some fun hour => if rates.rateCounts hour ≠ 0 then rates.rate hour else globalMean

omit [LinearOrder K] in
def uniformProfile (numBuckets : ℕ) : List K := List.replicate numBuckets (1 / numBuckets)

/-- The volumes of the buckets, or `none` when the forecaster raises. -/
def forecast [FloorRing K] (startTime : ℤ) (numBuckets : ℕ) (bucketSeconds : K)
    (reply : CandlesReply K) : Option (List K) :=
  if numBuckets = 0 then
    some []
  else if bucketSeconds ≤ 0 then
    none
  else
    (buildHourlyRateProfile (getCandles reply)).map fun hourlyRate =>
      match hourlyRate with
      | none => uniformProfile numBuckets
      | some hourlyRate =>
          let bucketMs := bucketSeconds * 1000
          let forecast := (List.range numBuckets).map fun j : ℕ =>
            let midpointMs := startTime + ⌊((j : K) + 0.5) * bucketMs⌋
            hourlyRate (hourOf midpointMs) * bucketSeconds
          if forecast.sum ≤ 0 then uniformProfile numBuckets else forecast

end

/-! ## What a forecast promises -/

variable {K : Type u} [Field K] [LinearOrder K] [IsStrictOrderedRing K]

/-- No candle of the reply has a negative volume. -/
def CandlesReply.NonNegative (reply : CandlesReply K) : Prop :=
  ∀ candle ∈ getCandles reply, ∀ volume ∈ candle.volume, 0 ≤ volume

theorem HourlyRates.addCandle_nonneg {rates next : HourlyRates K} {candle : Candle K}
    (hrates : ∀ hour, 0 ≤ rates.rateSums hour) (hvolume : ∀ volume ∈ candle.volume, 0 ≤ volume)
    (hnext : rates.addCandle candle = some next) : ∀ hour, 0 ≤ next.rateSums hour := by
  obtain ⟨⟨openTime, closeTime⟩, _, hnext⟩ := Option.bind_eq_some_iff.mp hnext
  dsimp only at hnext
  split at hnext
  next =>
    obtain rfl := Option.some.inj hnext
    exact hrates
  next hduration =>
    obtain ⟨volume, hsome, rfl⟩ := Option.map_eq_some_iff.mp hnext
    intro hour
    dsimp only
    rw [Function.update_apply]
    split
    next =>
      have hshare := div_nonneg (hvolume volume hsome) (not_le.mp hduration).le
      exact add_nonneg (hrates _) hshare
    next => exact hrates hour

theorem HourlyRates.foldlM_nonneg {rates last : HourlyRates K} {candles : List (Candle K)}
    (hrates : ∀ hour, 0 ≤ rates.rateSums hour)
    (hvolumes : ∀ candle ∈ candles, ∀ volume ∈ candle.volume, 0 ≤ volume)
    (hlast : candles.foldlM HourlyRates.addCandle rates = some last) :
    ∀ hour, 0 ≤ last.rateSums hour := by
  induction candles generalizing rates with
  | nil =>
      obtain rfl := Option.some.inj hlast
      exact hrates
  | cons candle rest ih =>
      rw [List.forall_mem_cons] at hvolumes
      rw [List.foldlM_cons, Option.bind_eq_bind, Option.bind_eq_some_iff] at hlast
      obtain ⟨next, hnext, hlast⟩ := hlast
      exact ih (addCandle_nonneg hrates hvolumes.1 hnext) hvolumes.2 hlast

theorem buildHourlyRateProfile_nonneg {candles : List (Candle K)} {hourlyRate : Fin 24 → K}
    (hvolumes : ∀ candle ∈ candles, ∀ volume ∈ candle.volume, 0 ≤ volume)
    (hprofile : buildHourlyRateProfile candles = some (some hourlyRate)) :
    ∀ hour, 0 ≤ hourlyRate hour := by
  unfold buildHourlyRateProfile at hprofile
  split at hprofile
  next => cases Option.some.inj hprofile
  next =>
    obtain ⟨rates, hrates, hprofile⟩ := Option.map_eq_some_iff.mp hprofile
    dsimp only at hprofile
    split at hprofile
    next => cases hprofile
    next =>
      obtain rfl := Option.some.inj hprofile
      have hrate : ∀ hour, 0 ≤ rates.rate hour := fun hour =>
        div_nonneg (HourlyRates.foldlM_nonneg (fun _ => le_refl 0) hvolumes hrates hour)
          (Nat.cast_nonneg _)
      intro hour
      dsimp only
      split
      next => exact hrate hour
      next =>
        refine div_nonneg (List.sum_nonneg fun rate hmem => ?_) (Nat.cast_nonneg _)
        obtain ⟨other, _, rfl⟩ := List.mem_map.mp hmem
        exact hrate other

/-- One volume for each bucket, none negative, not all zero. -/
structure IsVolumeProfile (numBuckets : ℕ) (volumes : List K) : Prop where
  length : volumes.length = numBuckets
  nonneg : ∀ volume ∈ volumes, 0 ≤ volume
  sum_pos : 0 < volumes.sum

theorem uniformProfile_isVolumeProfile {numBuckets : ℕ} (hbuckets : 0 < numBuckets) :
    IsVolumeProfile numBuckets (uniformProfile numBuckets : List K) := by
  have hcast : (0 : K) < numBuckets := Nat.cast_pos.mpr hbuckets
  refine ⟨List.length_replicate, fun volume hvolume => ?_, ?_⟩
  · rw [List.eq_of_mem_replicate hvolume]
    exact one_div_nonneg.mpr hcast.le
  · rw [uniformProfile, List.sum_replicate, nsmul_eq_mul, mul_one_div_cancel hcast.ne']
    exact one_pos

theorem forecast_isVolumeProfile [FloorRing K] {startTime : ℤ} {numBuckets : ℕ}
    {bucketSeconds : K} {reply : CandlesReply K} {volumes : List K} (hbuckets : 0 < numBuckets)
    (hbucket : 0 < bucketSeconds) (hreply : reply.NonNegative)
    (hforecast : forecast startTime numBuckets bucketSeconds reply = some volumes) :
    IsVolumeProfile numBuckets volumes := by
  unfold forecast at hforecast
  rw [if_neg hbuckets.ne', if_neg (not_le.mpr hbucket), Option.map_eq_some_iff] at hforecast
  obtain ⟨hourlyRate, hprofile, rfl⟩ := hforecast
  split
  next => exact uniformProfile_isVolumeProfile hbuckets
  next hourlyRate =>
    have hrates := buildHourlyRateProfile_nonneg hreply hprofile
    dsimp only
    split
    next => exact uniformProfile_isVolumeProfile hbuckets
    next hsum =>
      refine ⟨by rw [List.length_map, List.length_range], fun volume hvolume => ?_,
        not_le.mp hsum⟩
      obtain ⟨j, _, rfl⟩ := List.mem_map.mp hvolume
      exact mul_nonneg (hrates _) hbucket.le

end Opms.ACSchedule
