import Opms.ACSchedule.Schedule
import Mathlib.Analysis.Complex.Exponential
import Mathlib.Analysis.Real.Sqrt
import Mathlib.Data.List.Induction
import Mathlib.Data.List.Chain

/-! # The schedule as a partition of the order

Every slice but the last is a drop of the trajectory, the last one is what is
left. As the drops are not negative, the schedule splits the order on one side
exactly when the slices closed before the last one do not exceed the total.
-/

namespace Opms.ACSchedule

universe u

section Field

variable {K : Type u} [Field K] [LinearOrder K] [IsStrictOrderedRing K]

/-! ## The trajectory -/

/-- What the trajectory relies on in `exp`. -/
structure LawfulMath (math : MathFunctions K) : Prop where
  exp_strictMono : StrictMono math.exp
  exp_zero : math.exp 0 = 1

variable {math : MathFunctions K}

omit [IsStrictOrderedRing K] in
theorem sinhRatio_zero (math : MathFunctions K) (a : K) : sinhRatio math 0 a = 0 := by
  unfold sinhRatio
  split
  next => rfl
  next =>
    have hsame : a * (0 - 1) = -a * (0 + 1) := by ring
    rw [hsame, sub_self, zero_div]

theorem LawfulMath.den_pos (hmath : LawfulMath math) {a : K} (ha : 0 < a) :
    0 < 1 - math.exp (-2 * a) := by
  rw [sub_pos, ← hmath.exp_zero]
  exact hmath.exp_strictMono (by linarith)

theorem sinhRatio_one (hmath : LawfulMath math) (a : K) : sinhRatio math 1 a = 1 := by
  unfold sinhRatio
  split
  next => rfl
  next hpos =>
    have hden := hmath.den_pos (not_le.mp hpos)
    have hexponent : -a * (1 + 1) = -2 * a := by ring
    rw [hexponent, sub_self, mul_zero, hmath.exp_zero]
    exact div_self hden.ne'

theorem sinhRatio_mono (hmath : LawfulMath math) (a : K) : Monotone (sinhRatio math · a) := by
  intro u v huv
  unfold sinhRatio
  split
  next => exact huv
  next hpos =>
    have ha := not_le.mp hpos
    have hrise : math.exp (a * (u - 1)) ≤ math.exp (a * (v - 1)) :=
      hmath.exp_strictMono.monotone (mul_le_mul_of_nonneg_left (by linarith) ha.le)
    have hfall : math.exp (-a * (v + 1)) ≤ math.exp (-a * (u + 1)) :=
      hmath.exp_strictMono.monotone (mul_le_mul_of_nonpos_left (by linarith) (by linarith))
    exact div_le_div_of_nonneg_right (sub_le_sub hrise hfall) (hmath.den_pos ha).le

/-- The holdings at the fractions, as parts of the total. -/
def holdings (math : MathFunctions K) (a : K) (fractions : List K) : List K :=
  fractions.map fun v => sinhRatio math (1 - v) a

omit [IsStrictOrderedRing K] in
theorem isChain_of_not_decreasing {fractions : List K}
    (hincreasing : decreasesSomewhere fractions = false) :
    fractions.IsChain fun x y => 0 ≤ x ∧ x ≤ y := by
  induction fractions with
  | nil => exact .nil
  | cons x rest ih =>
      cases rest with
      | nil => exact .singleton x
      | cons y rest =>
          rw [decreasesSomewhere, Bool.or_eq_false_iff] at hincreasing
          exact .cons_cons (by simpa using hincreasing.1) (ih hincreasing.2)

theorem holdings_isChain (hmath : LawfulMath math) (a : K) {fractions : List K}
    (hchain : fractions.IsChain fun x y => 0 ≤ x ∧ x ≤ y) :
    (holdings math a fractions).IsChain (· ≥ ·) := by
  refine List.isChain_map_of_isChain _ (fun x y hxy => ?_) hchain
  exact sinhRatio_mono hmath a (by linarith [hxy.2])

/-! ## The slices -/

/-- The drops between successive holdings, in units of the order. -/
def drops (totalQuantity : K) : List K → List K
  | x :: y :: rest => (x - y) * totalQuantity :: drops totalQuantity (y :: rest)
  | _ => []

theorem drops_nonneg {totalQuantity : K} (htotal : 0 ≤ totalQuantity) {holdings : List K}
    (hchain : holdings.IsChain (· ≥ ·)) : ∀ size ∈ drops totalQuantity holdings, 0 ≤ size := by
  induction holdings with
  | nil => simp [drops]
  | cons x rest ih =>
      cases rest with
      | nil => simp [drops]
      | cons y rest =>
          rw [List.isChain_cons_cons] at hchain
          rw [drops, List.forall_mem_cons]
          exact ⟨mul_nonneg (sub_nonneg.mpr hchain.1) htotal, ih hchain.2⟩

omit [LinearOrder K] [IsStrictOrderedRing K] in
theorem drops_sum (totalQuantity x : K) (rest : List K) :
    (drops totalQuantity (x :: rest)).sum =
      (x - (x :: rest).getLast (List.cons_ne_nil x rest)) * totalQuantity := by
  induction rest generalizing x with
  | nil => simp [drops]
  | cons y rest ih =>
      rw [drops, List.sum_cons, ih, List.getLast_cons (List.cons_ne_nil y rest)]
      ring

omit [LinearOrder K] [IsStrictOrderedRing K] in
/-- The last slice is what the drops before it leave. -/
theorem sliceSizes_eq (totalQuantity cumulative : K) {holdings : List K}
    (hlength : 2 ≤ holdings.length) :
    sliceSizes totalQuantity cumulative holdings =
      drops totalQuantity holdings.dropLast ++
        [totalQuantity - cumulative - (drops totalQuantity holdings.dropLast).sum] := by
  induction holdings generalizing cumulative with
  | nil => simp at hlength
  | cons x rest ih =>
      cases rest with
      | nil => simp at hlength
      | cons y rest =>
          cases rest with
          | nil => simp [sliceSizes, drops]
          | cons z rest =>
              rw [sliceSizes, ih _ (by simp)]
              simp only [List.dropLast_cons_of_ne_nil, ne_eq, reduceCtorEq, not_false_eq_true,
                drops, List.cons_append, List.sum_cons]
              congr 3
              ring

omit [LinearOrder K] [IsStrictOrderedRing K] in
theorem sliceSizes_of_short (totalQuantity cumulative : K) {holdings : List K}
    (hshort : holdings.length < 2) : sliceSizes totalQuantity cumulative holdings = [] := by
  cases holdings with
  | nil => rfl
  | cons x rest =>
      cases rest with
      | nil => rfl
      | cons y rest => simp at hshort

/-! ## The merge -/

omit [IsStrictOrderedRing K] in
theorem mergeMinSize_nil (minOrderSize : Option K) : mergeMinSize [] minOrderSize = [] := by
  unfold mergeMinSize
  split
  next => rfl
  next => exact if_neg (lt_irrefl 0)

/-- The slices sum to the total, none trades the other side, and none is below
a positive minimum unless the whole order is: then there is one slice. -/
structure IsPartition (totalQuantity : K) (minOrderSize : Option K) (slices : List K) : Prop where
  sum : slices.sum = totalQuantity
  nonneg : ∀ size ∈ slices, 0 ≤ size
  large : ∀ m, minOrderSize = some m → 0 < m →
    (m ≤ totalQuantity → ∀ size ∈ slices, m ≤ size) ∧
      (totalQuantity < m → slices.length = 1)

/-- The slices that are closed once these sizes have been dealt with. -/
def closedSlices (minOrderSize : Option K) (sizes : List K) : List K :=
  match minOrderSize.filter (0 < ·) with
  | none => sizes
  | some minOrderSize => (sizes.foldl (mergeStep minOrderSize) ([], 0)).1

/-- What the merge loop has made of the sizes so far. -/
structure Merged (minOrderSize : K) (sizes : List K) (state : List K × K) : Prop where
  sum : state.1.sum + state.2 = sizes.sum
  large : ∀ size ∈ state.1, minOrderSize ≤ size
  nonneg : 0 ≤ state.2
  small : state.2 < minOrderSize

theorem merged_foldl {minOrderSize : K} (hmin : 0 < minOrderSize) {sizes : List K}
    (hsizes : ∀ size ∈ sizes, 0 ≤ size) :
    Merged minOrderSize sizes (sizes.foldl (mergeStep minOrderSize) ([], 0)) := by
  induction sizes using List.reverseRecOn with
  | nil => exact ⟨by simp, by simp, le_refl 0, hmin⟩
  | append_singleton sizes size ih =>
      rw [List.forall_mem_append, List.forall_mem_singleton] at hsizes
      have hmerged := ih hsizes.1
      rw [List.foldl_append, List.foldl_cons, List.foldl_nil, mergeStep]
      have hsum : (sizes ++ [size]).sum = sizes.sum + size := by simp
      split
      next hlarge =>
        refine ⟨?_, ?_, le_refl 0, hmin⟩
        · rw [hsum, ← hmerged.sum, List.sum_append, List.sum_singleton]
          ring
        · rw [List.forall_mem_append, List.forall_mem_singleton]
          exact ⟨hmerged.large, hlarge⟩
      next hsmall =>
        refine ⟨?_, hmerged.large, add_nonneg hmerged.nonneg hsizes.2, not_le.mp hsmall⟩
        rw [hsum, ← hmerged.sum, add_assoc]

theorem isPartition_of_large {minOrderSize totalQuantity : K} (hmin : 0 < minOrderSize)
    {slices : List K} (hlarge : ∀ size ∈ slices, minOrderSize ≤ size)
    (hsum : slices.sum = totalQuantity) (htotal : 0 < totalQuantity) :
    IsPartition totalQuantity (some minOrderSize) slices := by
  have hnonneg : ∀ size ∈ slices, 0 ≤ size := fun size hsize => hmin.le.trans (hlarge size hsize)
  have hle : minOrderSize ≤ totalQuantity := by
    cases slices with
    | nil => exact absurd (hsum.trans_gt htotal) (lt_irrefl 0)
    | cons first rest =>
        rw [List.forall_mem_cons] at hlarge hnonneg
        rw [← hsum, List.sum_cons]
        exact hlarge.1.trans (le_add_of_nonneg_right (List.sum_nonneg hnonneg.2))
  refine ⟨hsum, hnonneg, fun m hm _ => ?_⟩
  obtain rfl := Option.some.inj hm
  exact ⟨fun _ => hlarge, fun hlt => absurd hle (not_le.mpr hlt)⟩

/-- A positive rest goes to the last slice, or is the only one. -/
theorem mergeTail_isPartition {minOrderSize totalQuantity : K} (hmin : 0 < minOrderSize)
    {state : List K × K} (hlarge : ∀ size ∈ state.1, minOrderSize ≤ size)
    (hsmall : state.2 < minOrderSize) (hsum : state.1.sum + state.2 = totalQuantity)
    (hrest : 0 < state.2) : IsPartition totalQuantity (some minOrderSize) (mergeTail state) := by
  rw [mergeTail, if_pos hrest]
  split
  next last hlast =>
    have hslices : state.1.dropLast ++ [last] = state.1 := List.dropLast_append_getLast? last hlast
    rw [← hslices, List.sum_append, List.sum_singleton, add_assoc] at hsum
    rw [← hslices, List.forall_mem_append, List.forall_mem_singleton] at hlarge
    have hmerged : ∀ size ∈ state.1.dropLast ++ [last + state.2], minOrderSize ≤ size := by
      rw [List.forall_mem_append, List.forall_mem_singleton]
      exact ⟨hlarge.1, hlarge.2.trans (le_add_of_nonneg_right hrest.le)⟩
    refine isPartition_of_large hmin hmerged ?_ ?_
    · rw [List.sum_append, List.sum_singleton, hsum]
    · rw [← hsum]
      have hdropped : 0 ≤ state.1.dropLast.sum :=
        List.sum_nonneg fun size hsize => hmin.le.trans (hlarge.1 size hsize)
      linarith [hlarge.2]
  next hnone =>
    rw [List.getLast?_eq_none_iff.mp hnone, List.sum_nil, zero_add] at hsum
    refine ⟨by rw [List.sum_singleton, hsum], by simpa using hrest.le, fun m hm _ => ?_⟩
    obtain rfl := Option.some.inj hm
    exact ⟨fun hle => absurd hle (by rw [← hsum]; exact not_le.mpr hsmall), fun _ => rfl⟩

/-- Merging sizes whose last one is the rest gives a partition iff what is
closed before the last one is no more than the total. -/
theorem mergeMinSize_isPartition_iff {earlier : List K} (hearlier : ∀ size ∈ earlier, 0 ≤ size)
    {totalQuantity : K} (htotal : 0 < totalQuantity) (minOrderSize : Option K) :
    IsPartition totalQuantity minOrderSize
        (mergeMinSize (earlier ++ [totalQuantity - earlier.sum]) minOrderSize) ↔
      (closedSlices minOrderSize earlier).sum ≤ totalQuantity := by
  unfold mergeMinSize closedSlices
  cases hfilter : minOrderSize.filter (0 < ·) with
  | none =>
      have hsum : (earlier ++ [totalQuantity - earlier.sum]).sum = totalQuantity := by simp
      constructor
      · intro hpartition
        exact sub_nonneg.mp (hpartition.nonneg _ (by simp))
      · intro hle
        refine ⟨hsum, ?_, fun m hm hpos => ?_⟩
        · rw [List.forall_mem_append, List.forall_mem_singleton]
          exact ⟨hearlier, sub_nonneg.mpr hle⟩
        · rw [hm, Option.filter_some_pos (by simpa using hpos)] at hfilter
          cases hfilter
  | some m =>
      rw [Option.filter_eq_some_iff, decide_eq_true_iff] at hfilter
      obtain ⟨rfl, hpos⟩ := hfilter
      dsimp only
      rw [List.foldl_append, List.foldl_cons, List.foldl_nil]
      have hmerged := merged_foldl hpos hearlier
      set state := earlier.foldl (mergeStep m) ([], 0)
      have hrest : state.2 + (totalQuantity - earlier.sum) = totalQuantity - state.1.sum := by
        rw [← hmerged.sum]
        ring
      have hclosed : 0 ≤ state.1.sum :=
        List.sum_nonneg fun size hsize => hpos.le.trans (hmerged.large size hsize)
      rw [mergeStep, hrest]
      split
      next hlarge =>
        refine iff_of_true ?_ (by linarith)
        rw [mergeTail, if_neg (lt_irrefl 0)]
        refine isPartition_of_large hpos ?_ ?_ htotal
        · rw [List.forall_mem_append, List.forall_mem_singleton]
          exact ⟨hmerged.large, hlarge⟩
        · simp
      next hsmall =>
        have hsmall := not_le.mp hsmall
        obtain hleft | hover := lt_or_ge 0 (totalQuantity - state.1.sum)
        · refine iff_of_true ?_ (sub_pos.mp hleft).le
          exact mergeTail_isPartition hpos hmerged.large hsmall (add_sub_cancel _ _) hleft
        · -- the loop drops what is over
          rw [mergeTail, if_neg (not_lt.mpr hover)]
          constructor
          · exact fun hpartition => hpartition.sum.le
          · intro hle
            exact isPartition_of_large hpos hmerged.large
              (le_antisymm hle (sub_nonpos.mp hover)) htotal

/-! ## The whole schedule -/

/-- The parameters pass the checks that come before the fractions. -/
structure ScheduleParameters.Accepted (p : ScheduleParameters K) : Prop where
  duration : 0 < p.durationSeconds
  numIntervals : 0 < p.numIntervals
  riskAversion : 0 ≤ p.riskAversion
  volatility : 0 ≤ p.volatility
  etaTilde : 0 < p.eta - 1 / 2 * p.gamma * (p.durationSeconds / p.numIntervals)

variable {p : ScheduleParameters K}

omit [IsStrictOrderedRing K] in
theorem buildSchedule_eq_ok_iff {cumulativeVolumeFractions : Option (List K)} {slices : List K} :
    buildSchedule math p cumulativeVolumeFractions = .ok slices ↔
      p.Accepted ∧ ∃ fractions,
        scheduleFractions p.numIntervals cumulativeVolumeFractions = .ok fractions ∧
          mergeMinSize (sliceSizes p.totalQuantity 0 (holdings math (p.urgency math) fractions))
            p.minOrderSize = slices := by
  unfold buildSchedule
  constructor
  · intro hok
    split at hok
    next => cases hok
    next hduration =>
      split at hok
      next => cases hok
      next hintervals =>
        split at hok
        next => cases hok
        next hrisk =>
          split at hok
          next => cases hok
          next hvolatility =>
            dsimp only at hok
            split at hok
            next => cases hok
            next heta =>
              split at hok
              next => cases hok
              next fractions hfractions =>
                refine ⟨⟨not_le.mp hduration, not_le.mp hintervals, not_lt.mp hrisk,
                  not_lt.mp hvolatility, not_le.mp heta⟩, fractions, hfractions, ?_⟩
                exact Except.ok.inj hok
  · rintro ⟨haccepted, fractions, hfractions, rfl⟩
    rw [if_neg (not_le.mpr haccepted.duration), if_neg (not_le.mpr haccepted.numIntervals),
      if_neg (not_lt.mpr haccepted.riskAversion), if_neg (not_lt.mpr haccepted.volatility)]
    dsimp only
    rw [if_neg (not_le.mpr haccepted.etaTilde), hfractions]
    rfl

variable (math) in
/-- The slices before the last one. -/
def earlierSlices (p : ScheduleParameters K) (fractions : List K) : List K :=
  drops p.totalQuantity (holdings math (p.urgency math) fractions).dropLast

variable (math) in
/-- What has been split off for good when the last slice is reached. -/
def splitOff (p : ScheduleParameters K) (fractions : List K) : K :=
  (closedSlices p.minOrderSize (earlierSlices math p fractions)).sum

variable (math) in
/-- Given fractions have a last slice, and leave it something or nothing. -/
def LeavesRest (p : ScheduleParameters K) : Option (List K) → Prop
  | none => True
  | some fractions => 2 ≤ fractions.length ∧ splitOff math p fractions ≤ p.totalQuantity

theorem earlierSlices_nonneg (hmath : LawfulMath math) (htotal : 0 ≤ p.totalQuantity)
    {fractions : List K} (hchain : fractions.IsChain fun x y => 0 ≤ x ∧ x ≤ y) :
    ∀ size ∈ earlierSlices math p fractions, 0 ≤ size :=
  drops_nonneg htotal (holdings_isChain hmath _ hchain).dropLast

theorem closedSlices_sum_le (minOrderSize : Option K) {sizes : List K}
    (hsizes : ∀ size ∈ sizes, 0 ≤ size) : (closedSlices minOrderSize sizes).sum ≤ sizes.sum := by
  unfold closedSlices
  split
  next => exact le_refl _
  next m hfilter =>
    rw [Option.filter_eq_some_iff, decide_eq_true_iff] at hfilter
    have hmerged := merged_foldl hfilter.2 hsizes
    rw [← hmerged.sum]
    exact le_add_of_nonneg_right hmerged.nonneg

/-- Fractions up to one before the last split off no more than the total. -/
theorem splitOff_le (hmath : LawfulMath math) (htotal : 0 ≤ p.totalQuantity) {fractions : List K}
    (hchain : fractions.IsChain fun x y => 0 ≤ x ∧ x ≤ y)
    (hle : ∀ v ∈ fractions.dropLast, v ≤ 1) : splitOff math p fractions ≤ p.totalQuantity := by
  refine (closedSlices_sum_le _ (earlierSlices_nonneg hmath htotal hchain)).trans ?_
  rw [earlierSlices, holdings, ← List.map_dropLast]
  cases hdropped : fractions.dropLast with
  | nil => simpa [drops] using htotal
  | cons first rest =>
      have hfirst : 0 ≤ first := by
        cases fractions with
        | nil => cases hdropped
        | cons x others =>
            cases others with
            | nil => cases hdropped
            | cons y others =>
                obtain rfl : x = first := (List.cons.inj hdropped).1
                exact (List.isChain_cons_cons.mp hchain).1.1
      rw [hdropped] at hle
      rw [List.map_cons, drops_sum]
      refine mul_le_of_le_one_left htotal ?_
      have htop : sinhRatio math (1 - first) (p.urgency math) ≤ 1 :=
        (sinhRatio_mono hmath _ (sub_le_self 1 hfirst)).trans_eq (sinhRatio_one hmath _)
      have hbottom : 0 ≤ (List.map (fun v => sinhRatio math (1 - v) (p.urgency math))
          (first :: rest)).getLast (by simp) := by
        rw [List.getLast_map]
        have hlast := hle _ (List.getLast_mem (List.cons_ne_nil first rest))
        exact (sinhRatio_zero math _).symm.trans_le (sinhRatio_mono hmath _ (sub_nonneg.mpr hlast))
      exact (sub_le_self _ hbottom).trans htop

/-- The clock-time fractions `j / n`. -/
theorem clockFractions_isChain {numIntervals : ℤ} (hpos : 0 < numIntervals) {count : ℕ} :
    ((List.range count).map fun j : ℕ => (j : K) / numIntervals).IsChain
      fun x y => 0 ≤ x ∧ x ≤ y := by
  have hcast : (0 : K) < numIntervals := Int.cast_pos.mpr hpos
  refine List.isChain_map_of_isChain _ (fun i j hij => ?_) List.pairwise_lt_range.isChain
  exact ⟨div_nonneg i.cast_nonneg hcast.le,
    div_le_div_of_nonneg_right (Nat.cast_le.mpr hij.le) hcast.le⟩

theorem clockFractions_le_one {numIntervals : ℤ} (hpos : 0 < numIntervals) :
    ∀ v ∈ (List.range (numIntervals + 1).toNat).map fun j : ℕ => (j : K) / numIntervals, v ≤ 1 := by
  intro v hv
  obtain ⟨j, hj, rfl⟩ := List.mem_map.mp hv
  have hle : (j : ℤ) ≤ numIntervals := by
    have hlt := List.mem_range.mp hj
    omega
  have hcast : ((j : ℤ) : K) ≤ numIntervals := Int.cast_le.mpr hle
  rw [Int.cast_natCast] at hcast
  exact div_le_one_of_le₀ hcast (Int.cast_pos.mpr hpos).le

omit [IsStrictOrderedRing K] in
theorem scheduleFractions_some_ok {numIntervals : ℤ} {given fractions : List K}
    (hok : scheduleFractions numIntervals (some given) = .ok fractions) :
    given = fractions ∧ decreasesSomewhere given = false := by
  rw [scheduleFractions] at hok
  split at hok
  next => cases hok
  next hincreasing =>
    split at hok
    next => cases hok
    next last _ =>
      split at hok
      next => cases hok
      next => exact ⟨Except.ok.inj hok, Bool.eq_false_of_not_eq_true hincreasing⟩

/-- A schedule that is built is a partition of the order iff the fractions leave
a rest for a last slice. -/
theorem isPartition_iff_leavesRest (hmath : LawfulMath math) (htotal : 0 < p.totalQuantity)
    {cumulativeVolumeFractions : Option (List K)} {slices : List K}
    (hok : buildSchedule math p cumulativeVolumeFractions = .ok slices) :
    IsPartition p.totalQuantity p.minOrderSize slices ↔
      LeavesRest math p cumulativeVolumeFractions := by
  obtain ⟨haccepted, fractions, hfractions, rfl⟩ := buildSchedule_eq_ok_iff.mp hok
  have hpartition : 2 ≤ fractions.length → fractions.IsChain (fun x y => 0 ≤ x ∧ x ≤ y) →
      (IsPartition p.totalQuantity p.minOrderSize
          (mergeMinSize (sliceSizes p.totalQuantity 0 (holdings math (p.urgency math) fractions))
            p.minOrderSize) ↔ splitOff math p fractions ≤ p.totalQuantity) := by
    intro hlength hchain
    rw [sliceSizes_eq _ _ (by rwa [holdings, List.length_map]), sub_zero, ← earlierSlices]
    exact mergeMinSize_isPartition_iff (earlierSlices_nonneg hmath htotal.le hchain) htotal _
  cases cumulativeVolumeFractions with
  | none =>
      obtain rfl := Except.ok.inj hfractions
      have hpos := haccepted.numIntervals
      refine iff_of_true ((hpartition ?_ (clockFractions_isChain hpos)).mpr ?_) trivial
      · rw [List.length_map, List.length_range]
        omega
      · refine splitOff_le hmath htotal.le (clockFractions_isChain hpos) fun v hv => ?_
        exact clockFractions_le_one hpos v (List.dropLast_subset _ hv)
  | some given =>
      obtain ⟨rfl, hincreasing⟩ := scheduleFractions_some_ok hfractions
      have hchain := isChain_of_not_decreasing hincreasing
      by_cases hlength : 2 ≤ given.length
      · rw [hpartition hlength hchain, LeavesRest, and_iff_right hlength]
      · refine iff_of_false (fun hsplit => ?_) fun hrest => hlength hrest.1
        -- without a pair of fractions there is no slice at all
        have hsum := hsplit.sum
        rw [sliceSizes_of_short _ _ (by rwa [holdings, List.length_map, ← not_le]),
          mergeMinSize_nil, List.sum_nil] at hsum
        exact htotal.ne hsum

end Field

/-! ## Real arithmetic -/

/-- The functions of `math`, exactly. -/
noncomputable def realMath : MathFunctions ℝ := ⟨Real.exp, Real.sqrt⟩

theorem lawful_realMath : LawfulMath realMath := ⟨Real.exp_strictMono, Real.exp_zero⟩

theorem buildSchedule_isPartition_iff (p : ScheduleParameters ℝ) (htotal : 0 < p.totalQuantity)
    (cumulativeVolumeFractions : Option (List ℝ)) (slices : List ℝ)
    (hok : buildSchedule realMath p cumulativeVolumeFractions = .ok slices) :
    IsPartition p.totalQuantity p.minOrderSize slices ↔
      LeavesRest realMath p cumulativeVolumeFractions :=
  isPartition_iff_leavesRest lawful_realMath htotal hok

noncomputable def sampleParameters : ScheduleParameters ℝ where
  totalQuantity := 1
  durationSeconds := 60
  numIntervals := 2
  riskAversion := 0
  volatility := 1
  eta := 1
  gamma := 0
  minOrderSize := none

theorem sampleParameters_urgency : sampleParameters.urgency realMath = 0 := by
  simp [ScheduleParameters.urgency, sampleParameters, realMath]

theorem sampleParameters_accepted : sampleParameters.Accepted := by
  constructor <;> norm_num [sampleParameters]

theorem sampleParameters_schedule :
    buildSchedule realMath sampleParameters none = .ok [1 / 2, 1 / 2] := by
  refine buildSchedule_eq_ok_iff.mpr ⟨sampleParameters_accepted, _, rfl, ?_⟩
  rw [sampleParameters_urgency]
  have hcount : (sampleParameters.numIntervals + 1).toNat = 3 := rfl
  rw [hcount]
  norm_num [holdings, sinhRatio, sliceSizes, mergeMinSize, sampleParameters, List.range_succ]

theorem clock_time_halves :
    IsPartition sampleParameters.totalQuantity sampleParameters.minOrderSize [1 / 2, 1 / 2] :=
  (buildSchedule_isPartition_iff sampleParameters (by norm_num [sampleParameters]) none _
    sampleParameters_schedule).mpr trivial

/-- The check lets the last but one fraction exceed one. The last slice then
trades the other side. -/
theorem tolerated_fractions_reverse_last_slice :
    buildSchedule realMath sampleParameters (some [0, 1 + 1 / 10 ^ 9, 1 + 1 / 10 ^ 9]) =
        .ok [1 + 1 / 10 ^ 9, -(1 / 10 ^ 9)] ∧
      ¬ IsPartition sampleParameters.totalQuantity sampleParameters.minOrderSize
        [1 + 1 / 10 ^ 9, -(1 / 10 ^ 9)] := by
  refine ⟨buildSchedule_eq_ok_iff.mpr ⟨sampleParameters_accepted,
    [0, 1 + 1 / 10 ^ 9, 1 + 1 / 10 ^ 9], ?_, ?_⟩, ?_⟩
  · norm_num [scheduleFractions, decreasesSomewhere]
  · rw [sampleParameters_urgency]
    norm_num [holdings, sinhRatio, sliceSizes, mergeMinSize, sampleParameters]
  · intro hpartition
    have hlast := hpartition.nonneg (-(1 / 10 ^ 9)) (by simp)
    norm_num at hlast

end Opms.ACSchedule
