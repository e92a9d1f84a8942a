import Opms.Foundation.Periodic
import Opms.ACSchedule.Forecast
import Mathlib.Algebra.BigOperators.Fin
import Mathlib.Data.Rat.Floor

/-! # A day's volume

Buckets that divide the hour and add up to a day meet every hour of the day
equally often at their middles, wherever the first one starts. So the forecast
of a day distributes the volume that the hourly rates stand for.
-/

namespace Opms.ACSchedule

open Foundation

universe u

/-! ## The hour of a bucket -/

def msPerDay : ℕ := 86400000

/-- The hour that the `k`-th bucket since midnight belongs to, `perHour` to the hour. -/
def hourOfBucket (perHour : ℕ) (k : ℤ) : Fin 24 := ⟨(k / perHour % 24).toNat, by omega⟩

theorem hourOfBucket_periodic {perHour : ℕ} (hpos : 0 < perHour) :
    Function.Periodic (hourOfBucket perHour) (24 * perHour : ℕ) := by
  intro k
  have hturn : (k + (24 * perHour : ℕ)) / (perHour : ℤ) = k / perHour + 24 := by
    rw [Nat.cast_mul]
    exact Int.add_mul_ediv_right k 24 (by omega)
  simp only [hourOfBucket, hturn, Int.add_emod_right]

/-- A time `j` buckets later lies in the `j`-th next bucket. -/
theorem hourOf_bucket {bucketMs perHour : ℕ} (hhour : (bucketMs * perHour : ℤ) = msPerHour)
    (ms : ℤ) (j : ℕ) : hourOf (ms + j * bucketMs) = hourOfBucket perHour (ms / bucketMs + j) := by
  have hpos : (bucketMs : ℤ) ≠ 0 := by
    rintro hzero
    rw [hzero, zero_mul] at hhour
    cases hhour
  have hsplit : (ms + j * bucketMs) / msPerHour = (ms / bucketMs + j) / perHour := by
    rw [← hhour, ← Int.ediv_ediv_of_nonneg (Int.natCast_nonneg bucketMs),
      Int.add_mul_ediv_right ms j hpos]
  simp only [hourOf, hourOfBucket, hsplit]

/-- Whatever bucket comes first, a day's buckets meet every hour equally often. -/
theorem sum_hours {Sum : Type u} [AddCancelCommMonoid Sum] (rate : Fin 24 → Sum) {perHour : ℕ}
    (hpos : 0 < perHour) (first : ℤ) :
    ∑ j ∈ Finset.range (24 * perHour), rate (hourOfBucket perHour (first + j)) =
      perHour • ∑ hour, rate hour := by
  have hblocks : ∀ j ∈ Finset.range (24 * perHour), rate (hourOfBucket perHour j) =
      rate (Fin.ofNat 24 (j / perHour)) := by
    intro j _
    rfl
  have hhours : ∑ i ∈ Finset.range 24, rate (Fin.ofNat 24 i) = ∑ hour, rate hour := by
    rw [Finset.sum_range]
    apply Finset.sum_congr rfl
    intro hour _
    rw [Fin.ofNat_val_eq_self]
  have hwindow := sum_window ((hourOfBucket_periodic hpos).comp rate) first
  simp only [Function.comp_apply] at hwindow
  rw [hwindow, Finset.sum_congr rfl hblocks,
    sum_blocks (fun i => rate (Fin.ofNat 24 i)) 24 hpos, hhours]

/-! ## The forecast of a day -/

variable {K : Type u} [Field K] [LinearOrder K] [IsStrictOrderedRing K] [FloorRing K]

theorem floor_midpoint (bucketMs j : ℕ) :
    ⌊((j : K) + 0.5) * ((bucketMs : K) / 1000 * 1000)⌋ =
      ((bucketMs / 2 : ℕ) : ℤ) + j * bucketMs := by
  have hhalf : 2 * (bucketMs / 2) ≤ bucketMs ∧ bucketMs < 2 * (bucketMs / 2) + 2 := by omega
  have hlow : 2 * ((bucketMs / 2 : ℕ) : K) ≤ bucketMs := by exact_mod_cast hhalf.1
  have hhigh : (bucketMs : K) < 2 * ((bucketMs / 2 : ℕ) : K) + 2 := by exact_mod_cast hhalf.2
  have hmiddle : ((j : K) + 0.5) * ((bucketMs : K) / 1000 * 1000) =
      j * bucketMs + bucketMs / 2 := by
    rw [div_mul_cancel₀ _ (by norm_num)]
    norm_num
    ring
  rw [Int.floor_eq_iff, hmiddle]
  rw [Int.cast_add, Int.cast_mul, Int.cast_natCast, Int.cast_natCast, Int.cast_natCast]
  constructor <;> linarith

/-- The bucket volumes where the rates are known and not all zero. -/
def dayVolumes (hourlyRate : Fin 24 → K) (bucketMs perHour : ℕ) (startTime : ℤ) : List K :=
  (List.range (24 * perHour)).map fun j : ℕ =>
    hourlyRate (hourOfBucket perHour ((startTime + (bucketMs / 2 : ℕ)) / bucketMs + j)) *
      (bucketMs / (1000 : ℕ))

omit [LinearOrder K] [IsStrictOrderedRing K] [FloorRing K] in
theorem sum_dayVolumes [CharZero K] (hourlyRate : Fin 24 → K) {bucketMs perHour : ℕ}
    (hhour : bucketMs * perHour = 3600000) (startTime : ℤ) :
    (dayVolumes hourlyRate bucketMs perHour startTime).sum = 3600 * ∑ hour, hourlyRate hour := by
  have hpos : 0 < perHour := by
    rcases Nat.eq_zero_or_pos perHour with rfl | hpos
    · cases hhour
    · exact hpos
  have hcast : (bucketMs : K) * perHour = 3600000 := by exact_mod_cast hhour
  have hsum := sum_hours hourlyRate hpos ((startTime + (bucketMs / 2 : ℕ)) / bucketMs)
  have hlist : (dayVolumes hourlyRate bucketMs perHour startTime).sum =
      ∑ j ∈ Finset.range (24 * perHour), hourlyRate
        (hourOfBucket perHour ((startTime + (bucketMs / 2 : ℕ)) / bucketMs + j)) *
          (bucketMs / (1000 : ℕ)) := rfl
  rw [hlist, ← Finset.sum_mul, hsum, nsmul_eq_mul]
  calc (perHour : K) * (∑ hour, hourlyRate hour) * (bucketMs / (1000 : ℕ))
      = bucketMs * perHour / 1000 * ∑ hour, hourlyRate hour := by
        rw [Nat.cast_ofNat]
        ring
    _ = 3600 * ∑ hour, hourlyRate hour := by
      rw [hcast]
      norm_num

theorem forecast_eq_dayVolumes {candles : List (Candle K)} {hourlyRate : Fin 24 → K}
    (hprofile : buildHourlyRateProfile candles = some (some hourlyRate))
    (htotal : 0 < ∑ hour, hourlyRate hour) {bucketMs perHour : ℕ}
    (hhour : bucketMs * perHour = 3600000) (startTime : ℤ) :
    forecast startTime (24 * perHour) ((bucketMs : K) / 1000) (.candles candles) =
      some (dayVolumes hourlyRate bucketMs perHour startTime) := by
  have hboth : bucketMs ≠ 0 ∧ perHour ≠ 0 := by
    constructor <;> rintro rfl <;> simp at hhour
  have hbucket : (0 : K) < bucketMs / 1000 := by
    have hcast : (0 : K) < bucketMs := Nat.cast_pos.mpr (Nat.pos_of_ne_zero hboth.1)
    positivity
  have hms : (bucketMs * perHour : ℤ) = msPerHour := by
    rw [msPerHour]
    exact_mod_cast hhour
  have hbuckets : (List.range (24 * perHour)).map (fun j : ℕ =>
      hourlyRate (hourOf (startTime + ⌊((j : K) + 0.5) * ((bucketMs : K) / 1000 * 1000)⌋)) *
        ((bucketMs : K) / 1000)) = dayVolumes hourlyRate bucketMs perHour startTime := by
    unfold dayVolumes
    apply List.map_congr_left
    intro j _
    rw [floor_midpoint, ← add_assoc, hourOf_bucket hms, Nat.cast_ofNat]
  have hsum : 0 < (dayVolumes hourlyRate bucketMs perHour startTime).sum := by
    rw [sum_dayVolumes hourlyRate hhour]
    positivity
  rw [forecast, if_neg (by omega), if_neg (not_le.mpr hbucket), getCandles, hprofile]
  simp only [Option.map_some, hbuckets, if_neg (not_le.mpr hsum)]

omit [LinearOrder K] [IsStrictOrderedRing K] [FloorRing K] in
theorem getElem?_dayVolumes (hourlyRate : Fin 24 → K) {bucketMs perHour : ℕ}
    (hbucket : 0 < bucketMs) (startTime : ℤ) {j : ℕ} (hj : j < 24 * perHour) :
    (dayVolumes hourlyRate bucketMs perHour startTime)[j]? =
      (dayVolumes hourlyRate bucketMs perHour (startTime + j * bucketMs)).head? := by
  have hlater : (startTime + j * bucketMs + (bucketMs / 2 : ℕ)) / (bucketMs : ℤ) =
      (startTime + (bucketMs / 2 : ℕ)) / bucketMs + j := by
    rw [add_right_comm]
    exact Int.add_mul_ediv_right _ _ (by omega)
  rw [List.head?_eq_getElem?, dayVolumes, dayVolumes, List.getElem?_map, List.getElem?_map,
    List.getElem?_range hj, List.getElem?_range (by omega), hlater]
  simp

/-- The forecast of a day's buckets adds up to the day's volume at the hourly
rates, whenever it starts, and starting it later shifts the buckets. -/
theorem forecast_conserves_day (candles : List (Candle K))
    (hvolumes : ∀ candle ∈ candles, ∀ volume ∈ candle.volume, 0 ≤ volume)
    (hourlyRate : Fin 24 → K)
    (hprofile : buildHourlyRateProfile candles = some (some hourlyRate))
    (hsome : ∃ hour, hourlyRate hour ≠ 0) (bucketMs : ℕ) (hdivides : bucketMs ∣ 3600000) :
    ∃ volumes : ℤ → List K, ∀ startTime : ℤ,
      forecast startTime (msPerDay / bucketMs) ((bucketMs : K) / 1000) (.candles candles) =
        some (volumes startTime) ∧
      (volumes startTime).length = msPerDay / bucketMs ∧
      (∀ volume ∈ volumes startTime, 0 ≤ volume) ∧
      (volumes startTime).sum = 3600 * ∑ hour, hourlyRate hour ∧
      ∀ j < msPerDay / bucketMs,
        (volumes startTime)[j]? = (volumes (startTime + j * bucketMs)).head? := by
  obtain ⟨perHour, hhour⟩ := hdivides
  have hbucket : 0 < bucketMs := by
    rcases Nat.eq_zero_or_pos bucketMs with rfl | hpos
    · simp at hhour
    · exact hpos
  have hbuckets : msPerDay / bucketMs = 24 * perHour := by
    apply Nat.div_eq_of_eq_mul_right hbucket
    rw [Nat.mul_left_comm, ← hhour, msPerDay]
  have hrates := buildHourlyRateProfile_nonneg hvolumes hprofile
  have htotal : 0 < ∑ hour, hourlyRate hour := by
    obtain ⟨hour, hne⟩ := hsome
    exact Finset.sum_pos' (fun hour _ => hrates hour)
      ⟨hour, Finset.mem_univ hour, lt_of_le_of_ne (hrates hour) (Ne.symm hne)⟩
  rw [hbuckets]
  refine ⟨dayVolumes hourlyRate bucketMs perHour, fun startTime => ⟨?_, ?_, ?_, ?_, ?_⟩⟩
  · exact forecast_eq_dayVolumes hprofile htotal hhour.symm startTime
  · rw [dayVolumes, List.length_map, List.length_range]
  · intro volume hmem
    obtain ⟨j, _, rfl⟩ := List.mem_map.mp hmem
    have hseconds : (0 : K) ≤ bucketMs / (1000 : ℕ) := by positivity
    exact mul_nonneg (hrates _) hseconds
  · exact sum_dayVolumes hourlyRate hhour.symm startTime
  · exact fun j hj => getElem?_dayVolumes hourlyRate hbucket startTime hj

/-- An hour at one unit per second and an hour at two. -/
def sampleCandles : List (Candle ℚ) :=
  [⟨some (0, 3600000), some 3600⟩, ⟨some (3600000, 7200000), some 7200⟩]

/-- Their rates, with the mean in the other hours. -/
def sampleRates : Fin 24 → ℚ := fun hour => if hour = 0 then 1 else if hour = 1 then 2 else 3 / 2

theorem forecast_conserves_day_of_minutes : ∃ volumes,
    forecast 12345 (msPerDay / 60000) (((60000 : ℕ) : ℚ) / 1000) (.candles sampleCandles) =
      some volumes ∧ volumes.length = 1440 ∧ volumes.sum = 129600 := by
  obtain ⟨volumes, hvolumes⟩ := forecast_conserves_day sampleCandles (by decide +kernel) sampleRates
    (by decide +kernel) ⟨0, by decide +kernel⟩ 60000 (by decide)
  obtain ⟨hforecast, hlength, -, hsum, -⟩ := hvolumes 12345
  exact ⟨volumes 12345, hforecast, hlength, hsum.trans (by decide +kernel)⟩

end Opms.ACSchedule
